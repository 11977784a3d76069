import IGhostVT.Session.Consume
import IGhostVT.Session.RebuildEffect

/-!
# Session/RoundTrip — a preamble read back

`rebuilt_of_covers` says what `rebuild p` leaves of any terminal `p` covers, and
`runs_preamble` reads it off a tracker.
-/

namespace TerminalReplayState

open TerminalStreamTracker

variable {p u s : TerminalReplayState}

/-! ## Modes alone -/

/-- Everything a mode that switches no screen leaves alone. -/
def withoutModes (s : TerminalReplayState) : TerminalReplayState :=
  { s with
    decModes := ∅
    savedDECModes := ∅
    ansiModes := ∅
    mouseEvent := none
    mouseFormat := none
    cursor := { s.cursor with origin := false } }

/-- A mode that switches no screen and saves no cursor. -/
def Plain (m : ℕ) : Prop := m ∉ alternateScreenModes ∧ m ≠ 1048

instance (m : ℕ) : Decidable (Plain m) :=
  inferInstanceAs (Decidable (m ∉ alternateScreenModes ∧ m ≠ 1048))

theorem plain_of_mem {m : ℕ}
    (h : m ∈ trackedDECModes ∨ m ∈ mouseEventModes ∨ m ∈ mouseFormatModes) :
    Plain m := by
  have hall : ∀ m ∈ trackedDECModes ++ mouseEventModes ++ mouseFormatModes,
      m ∉ alternateScreenModes ∧ m ≠ 1048 := by decide
  refine hall m ?_
  simp only [List.mem_append]
  tauto

/-- What setting such a mode does. -/
theorem Plain.setDECMode {m : ℕ} (hm : Plain m) (s : TerminalReplayState) (v : Bool) :
    s.setDECMode m v =
      { s with
        decModes := if m ∈ trackedDECModes then s.decModes.insert m v else s.decModes
        cursor := { s.cursor with origin := if m = 6 then v else s.cursor.origin }
        mouseEvent := if m ∈ mouseEventModes then some (if v then m else 0) else s.mouseEvent
        mouseFormat := if m ∈ mouseFormatModes then some (if v then m else 0)
          else s.mouseFormat } := by
  have hdec : ∀ m ∈ trackedDECModes, m ∉ mouseEventModes ∧ m ∉ mouseFormatModes := by decide
  have hevent : ∀ m ∈ mouseEventModes, m ∉ mouseFormatModes ∧ m ≠ 6 := by decide
  have hformat : ∀ m ∈ mouseFormatModes, m ≠ 6 := by decide
  have horigin : (6 : ℕ) ∈ trackedDECModes := by decide
  rw [TerminalReplayState.setDECMode]
  by_cases h1 : m ∈ trackedDECModes
  · obtain ⟨h2, h3⟩ := hdec m h1
    by_cases h6 : m = 6
    · subst h6
      simp [horigin, h2, h3]
    · simp [h1, h2, h3, h6]
  · by_cases h2 : m ∈ mouseEventModes
    · simp [h1, h2, hevent m h2]
    · by_cases h3 : m ∈ mouseFormatModes
      · simp [h1, h2, h3, hformat m h3]
      · have h6 : m ≠ 6 := fun h => h1 (h ▸ horigin)
        simp [h1, h2, h3, hm.1, hm.2, h6]

theorem Plain.withoutModes {m : ℕ} (hm : Plain m) (s : TerminalReplayState) (v : Bool) :
    (s.setDECMode m v).withoutModes = s.withoutModes := by
  rw [hm.setDECMode]
  rfl

/-- A mode just set reads as it was set, the modes not kept being off. -/
theorem Plain.decMode_setDECMode {m : ℕ} (hm : Plain m)
    (hs : ∀ k v, s.decModes.get? k = some v → k ∈ trackedDECModes) {v : Bool}
    (hv : m ∉ trackedDECModes → m ∉ mouseEventModes → m ∉ mouseFormatModes → v = false) :
    (s.setDECMode m v).decMode m = v := by
  have hdec : ∀ m ∈ trackedDECModes, m ∉ mouseEventModes ∧ m ∉ mouseFormatModes := by decide
  have hevent : ∀ m ∈ mouseEventModes, m ≠ 0 := by decide
  have hformat : ∀ m ∈ mouseFormatModes, m ∉ mouseEventModes ∧ m ≠ 0 := by decide
  have hdefault : ∀ m, m ∉ trackedDECModes → defaultDECMode m = false := by
    intro m hm
    simp only [defaultDECMode, decide_eq_false_iff_not]
    intro hin
    refine hm ?_
    fin_cases hin <;> decide
  rw [hm.setDECMode, decMode, if_neg hm.1]
  by_cases h1 : m ∈ trackedDECModes
  · simp [h1, hdec m h1]
  · by_cases h2 : m ∈ mouseEventModes
    · cases v <;> simp [h2, (hevent m h2).symm]
    · by_cases h3 : m ∈ mouseFormatModes
      · cases v <;> simp [h2, h3, (hformat m h3).2.symm]
      · have hnone : s.decModes.get? m = none := by
          cases hg : s.decModes.get? m with
          | none => rfl
          | some w => exact absurd (hs m w hg) h1
        simp [h1, h2, h3, hnone, hdefault m h1, hv h1 h2 h3]

/-! ## XTSAVE's record -/

/-- One mode set to what was saved, and saved again. -/
def resave (s : TerminalReplayState) (e : ℕ × Bool) : TerminalReplayState :=
  (s.setDECMode e.1 e.2).saveDECMode e.1

/-- An entry XTSAVE can have recorded. -/
structure Recorded (e : ℕ × Bool) : Prop where
  plain : Plain e.1
  off : e.1 ∉ trackedDECModes → e.1 ∉ mouseEventModes → e.1 ∉ mouseFormatModes → e.2 = false

/-- The entries written back. -/
def recorded (p : TerminalReplayState) : List (ℕ × Bool) :=
  p.savedDECModes.entries.filter fun e => e.1 ∉ alternateScreenModes ∧ e.1 ≠ 1048

theorem putSavedModes_eq (p s : TerminalReplayState) :
    p.putSavedModes s = p.recorded.foldl resave s :=
  rfl

theorem recorded_pairwise (p : TerminalReplayState) : p.recorded.Pairwise fun a b => a.1 < b.1 :=
  p.savedDECModes.sorted.filter _

theorem lookupIn_recorded (p : TerminalReplayState) (m : ℕ) : Dict.lookupIn m p.recorded =
    if Plain m then p.savedDECModes.get? m else none := by
  have h := Dict.lookupIn_filter_key (fun m => decide (Plain m)) m p.savedDECModes.entries
  simp only [decide_eq_true_eq] at h
  exact h

theorem Writable.recorded (hp : Writable p) {e : ℕ × Bool} (he : e ∈ p.recorded) : Recorded e := by
  obtain ⟨hmem, hplain⟩ := List.mem_filter.mp he
  have hplain : Plain e.1 := of_decide_eq_true hplain
  refine ⟨hplain, fun h1 h2 h3 => ?_⟩
  refine hp.saved e.1 e.2 (Dict.mem_entries_iff.mp hmem) hplain.1 h1 ?_
  rw [touched, if_neg h2, if_neg h3, Option.isSome_eq_false_iff, Option.isNone_iff_eq_none]
  cases hg : p.decModes.get? e.1 with
  | none => rfl
  | some v => exact absurd (hp.dec e.1 v hg) h1

/-- A mouse mode is saved on only where the mouse was ever touched. -/
theorem Writable.recorded_mouse (hp : Writable p) {e : ℕ × Bool} (he : e ∈ p.recorded) :
    (e.1 ∈ mouseEventModes → p.mouseEvent = none → e.2 = false) ∧
      (e.1 ∈ mouseFormatModes → p.mouseFormat = none → e.2 = false) := by
  obtain ⟨hmem, hplain⟩ := List.mem_filter.mp he
  have hplain : Plain e.1 := of_decide_eq_true hplain
  have hsaved := hp.saved e.1 e.2 (Dict.mem_entries_iff.mp hmem) hplain.1
  have hevent : ∀ m ∈ mouseEventModes, m ∉ trackedDECModes := by decide
  have hformat : ∀ m ∈ mouseFormatModes, m ∉ trackedDECModes ∧ m ∉ mouseEventModes := by decide
  constructor
  · intro h hnone
    exact hsaved (hevent _ h) (by rw [touched, if_pos h, hnone]; rfl)
  · intro h hnone
    exact hsaved (hformat _ h).1 (by rw [touched, if_neg (hformat _ h).2, if_pos h, hnone]; rfl)

theorem foldl_withoutModes {α : Type*} {f : TerminalReplayState → α → TerminalReplayState}
    {as : List α} (h : ∀ a ∈ as, ∀ s, (f s a).withoutModes = s.withoutModes) :
    (as.foldl f s).withoutModes = s.withoutModes := by
  induction as generalizing s with
  | nil => rfl
  | cons a as ih =>
    rw [List.foldl_cons, ih fun b hb => h b (List.mem_cons_of_mem _ hb)]
    exact h a List.mem_cons_self s

variable {es : List (ℕ × Bool)}

theorem resave_decModes {e : ℕ × Bool} (he : Recorded e) (s : TerminalReplayState) :
    (s.resave e).decModes
      = if e.1 ∈ trackedDECModes then s.decModes.insert e.1 e.2 else s.decModes := by
  rw [resave, he.plain.setDECMode]
  rfl

/-- The kept modes among the record are left as they were saved. -/
theorem foldl_resave_decModes (hes : ∀ e ∈ es, Recorded e) :
    (es.foldl resave s).decModes = (es.filter fun e => decide (e.1 ∈ trackedDECModes)).foldl
      (fun d e => d.insert e.1 e.2) s.decModes := by
  induction es generalizing s with
  | nil => rfl
  | cons e es ih =>
    have he := resave_decModes (hes e List.mem_cons_self) s
    rw [List.foldl_cons, ih fun a ha => hes a (List.mem_cons_of_mem _ ha), he]
    by_cases htracked : e.1 ∈ trackedDECModes
    · rw [if_pos htracked, List.filter_cons_of_pos (by simpa using htracked), List.foldl_cons]
    · rw [if_neg htracked, List.filter_cons_of_neg (by simpa using htracked)]

/-- The record itself is written back as it stands. -/
theorem foldl_resave_savedDECModes (hes : ∀ e ∈ es, Recorded e)
    (hs : ∀ k v, s.decModes.get? k = some v → k ∈ trackedDECModes) :
    (es.foldl resave s).savedDECModes
      = es.foldl (fun d e => d.insert e.1 e.2) s.savedDECModes := by
  induction es generalizing s with
  | nil => rfl
  | cons e es ih =>
    have he := hes e List.mem_cons_self
    have hdec : ∀ k v, (s.resave e).decModes.get? k = some v → k ∈ trackedDECModes := by
      intro k v hk
      rw [resave_decModes he] at hk
      split_ifs at hk with htracked
      · rw [Dict.get?_insert] at hk
        split_ifs at hk with heq
        · exact heq ▸ htracked
        · exact hs k v hk
      · exact hs k v hk
    have hsaved : (s.resave e).savedDECModes = s.savedDECModes.insert e.1 e.2 := by
      rw [resave, saveDECMode, he.plain.decMode_setDECMode hs he.off, he.plain.setDECMode]
    rw [List.foldl_cons, List.foldl_cons, ih (fun a ha => hes a (List.mem_cons_of_mem _ ha)) hdec,
      hsaved]

theorem resave_mouse {e : ℕ × Bool} (he : Recorded e) (s : TerminalReplayState) :
    (s.resave e).mouseEvent
        = (if e.1 ∈ mouseEventModes then some (if e.2 then e.1 else 0) else s.mouseEvent) ∧
      (s.resave e).mouseFormat
        = (if e.1 ∈ mouseFormatModes then some (if e.2 then e.1 else 0) else s.mouseFormat) := by
  rw [resave, he.plain.setDECMode]
  exact ⟨rfl, rfl⟩

/-- A mouse setting never touched is still off after the record is written back. -/
theorem foldl_resave_mouse {get : TerminalReplayState → Option ℕ} {modes : List ℕ}
    (hget : ∀ e ∈ es, ∀ s, get (s.resave e)
      = if e.1 ∈ modes then some (if e.2 then e.1 else 0) else get s)
    (hoff : ∀ e ∈ es, e.1 ∈ modes → e.2 = false) (hs : (get s).getD 0 = 0) :
    (get (es.foldl resave s)).getD 0 = 0 := by
  induction es generalizing s with
  | nil => exact hs
  | cons e es ih =>
    refine ih (fun a ha => hget a (List.mem_cons_of_mem _ ha))
      (fun a ha => hoff a (List.mem_cons_of_mem _ ha)) ?_
    rw [hget e List.mem_cons_self]
    split_ifs with hm hv
    · exact absurd (hoff e List.mem_cons_self hm) (by simp [hv])
    · rfl
    · exact hs

/-- What writing the record back leaves. -/
structure Resaved (p s r : TerminalReplayState) : Prop where
  rest : r.withoutModes = s.withoutModes
  dec : ∀ m, r.decModes.get? m
    = (if m ∈ trackedDECModes then p.savedDECModes.get? m else none).or (s.decModes.get? m)
  saved : ∀ m, r.savedDECModes.get? m
    = (if Plain m then p.savedDECModes.get? m else none).or (s.savedDECModes.get? m)
  ansi : r.ansiModes = s.ansiModes
  event : p.mouseEvent = none → s.mouseEvent = none → r.mouseEvent.getD 0 = 0
  format : p.mouseFormat = none → s.mouseFormat = none → r.mouseFormat.getD 0 = 0

theorem Writable.resaved (hp : Writable p)
    (hs : ∀ k v, s.decModes.get? k = some v → k ∈ trackedDECModes) :
    Resaved p s (p.putSavedModes s) := by
  have hrecorded : ∀ e ∈ p.recorded, Recorded e := fun e he => hp.recorded he
  rw [putSavedModes_eq]
  constructor
  case rest => exact foldl_withoutModes fun e he s => (hrecorded e he).plain.withoutModes s e.2
  case dec =>
    intro m
    rw [foldl_resave_decModes hrecorded, Dict.get?_foldl_insert (p.recorded_pairwise.filter _),
      Dict.lookupIn_filter_key (fun m => decide (m ∈ trackedDECModes)), lookupIn_recorded]
    by_cases htracked : m ∈ trackedDECModes
    · rw [if_pos (by simpa using htracked), if_pos (plain_of_mem (Or.inl htracked)),
        if_pos htracked]
    · rw [if_neg (by simpa using htracked), if_neg htracked]
  case saved =>
    intro m
    rw [foldl_resave_savedDECModes hrecorded hs, Dict.get?_foldl_insert p.recorded_pairwise,
      lookupIn_recorded]
  case ansi =>
    refine List.foldlRecOn (motive := fun w : TerminalReplayState => w.ansiModes = s.ansiModes)
      _ _ rfl fun w hw e he => ?_
    rw [resave, (hrecorded e he).plain.setDECMode]
    exact hw
  case event =>
    intro hnone hsnone
    exact foldl_resave_mouse (fun e he s => (resave_mouse (hrecorded e he) s).1)
      (fun e he hm => (hp.recorded_mouse he).1 hm hnone) (by rw [hsnone]; rfl)
  case format =>
    intro hnone hsnone
    exact foldl_resave_mouse (fun e he s => (resave_mouse (hrecorded e he) s).2)
      (fun e he hm => (hp.recorded_mouse he).2 hm hnone) (by rw [hsnone]; rfl)

/-! ## Every mode -/

/-- The kept DEC modes put in place, and nothing else. -/
theorem foldl_setDECMode (hes : ∀ e ∈ es, e.1 ∈ trackedDECModes) :
    ∃ w, w = es.foldl (fun s e => s.setDECMode e.1 e.2) s ∧
      w.decModes = es.foldl (fun d e => d.insert e.1 e.2) s.decModes ∧
      w.savedDECModes = s.savedDECModes ∧ w.ansiModes = s.ansiModes ∧
      w.mouseEvent = s.mouseEvent ∧ w.mouseFormat = s.mouseFormat ∧
      w.withoutModes = s.withoutModes := by
  have hdec : ∀ m ∈ trackedDECModes, m ∉ mouseEventModes ∧ m ∉ mouseFormatModes := by decide
  induction es generalizing s with
  | nil => exact ⟨_, rfl, rfl, rfl, rfl, rfl, rfl, rfl⟩
  | cons e es ih =>
    have htracked := hes e List.mem_cons_self
    obtain ⟨h2, h3⟩ := hdec _ htracked
    obtain ⟨w, rfl, hd, hs, ha, he, hf, hw⟩ :=
      ih (s := s.setDECMode e.1 e.2) fun a ha => hes a (List.mem_cons_of_mem _ ha)
    have hplain := (plain_of_mem (Or.inl htracked)).setDECMode s e.2
    rw [if_pos htracked, if_neg h2, if_neg h3] at hplain
    rw [hplain] at hd hs ha he hf hw
    refine ⟨_, rfl, ?_, ?_, ?_, ?_, ?_, ?_⟩
    all_goals rw [List.foldl_cons, hplain]
    exacts [hd, hs, ha, he, hf, hw]

/-- A mouse setting put in place. -/
theorem putMouse_spec {mode : Option ℕ} {off : ℕ}
    (hmode : ∀ m, mode = some m → m = 0 ∨ Plain m ∧ m ∉ trackedDECModes)
    (hoff : Plain off ∧ off ∉ trackedDECModes) :
    (putMouse mode off s).decModes = s.decModes ∧
      (putMouse mode off s).savedDECModes = s.savedDECModes ∧
      (putMouse mode off s).ansiModes = s.ansiModes ∧
      (putMouse mode off s).withoutModes = s.withoutModes := by
  have hset : ∀ m v, Plain m ∧ m ∉ trackedDECModes → (s.setDECMode m v).decModes = s.decModes ∧
      (s.setDECMode m v).savedDECModes = s.savedDECModes ∧
      (s.setDECMode m v).ansiModes = s.ansiModes ∧
      (s.setDECMode m v).withoutModes = s.withoutModes := by
    intro m v ⟨hplain, htracked⟩
    rw [hplain.setDECMode, if_neg htracked]
    exact ⟨rfl, rfl, rfl, rfl⟩
  cases mode with
  | none => exact ⟨rfl, rfl, rfl, rfl⟩
  | some m =>
    rw [putMouse]
    split_ifs with hm
    · exact hset off false hoff
    · exact hset m true ((hmode m rfl).resolve_left hm)

/-- What a mouse setting's modes do to one of the two registers. -/
def MouseRegister (get : TerminalReplayState → Option ℕ) (modes : List ℕ) : Prop :=
  ∀ m, Plain m → ∀ s v, get (s.setDECMode m v)
    = if m ∈ modes then some (if v then m else 0) else get s

theorem mouseRegister_event : MouseRegister mouseEvent mouseEventModes := fun m hm s v => by
  rw [hm.setDECMode]

theorem mouseRegister_format : MouseRegister mouseFormat mouseFormatModes := fun m hm s v => by
  rw [hm.setDECMode]

/-- A mouse setting is put in place in its register. -/
theorem MouseRegister.put {get : TerminalReplayState → Option ℕ} {modes : List ℕ}
    (hget : MouseRegister get modes) (hplain : ∀ m ∈ modes, Plain m) {mode : Option ℕ} {off : ℕ}
    (hoff : off ∈ modes) (hmode : ∀ m, mode = some m → m = 0 ∨ m ∈ modes)
    (hs : mode = none → (get s).getD 0 = 0) :
    (get (putMouse mode off s)).getD 0 = mode.getD 0 := by
  cases mode with
  | none => exact hs rfl
  | some m =>
    rw [putMouse]
    split_ifs with hm
    · rw [hget off (hplain off hoff), if_pos hoff, hm]
      rfl
    · have hmem := (hmode m rfl).resolve_left hm
      rw [hget m (hplain m hmem), if_pos hmem]
      rfl

/-- The other register is left alone. -/
theorem MouseRegister.put_other {get : TerminalReplayState → Option ℕ} {modes others : List ℕ}
    (hget : MouseRegister get modes) (hplain : ∀ m ∈ others, Plain m ∧ m ∉ modes) {mode : Option ℕ}
    {off : ℕ} (hoff : off ∈ others) (hmode : ∀ m, mode = some m → m = 0 ∨ m ∈ others) :
    get (putMouse mode off s) = get s := by
  cases mode with
  | none => rfl
  | some m =>
    rw [putMouse]
    split_ifs with hm
    · rw [hget off (hplain off hoff).1, if_neg (hplain off hoff).2]
    · have hmem := hplain m ((hmode m rfl).resolve_left hm)
      rw [hget m hmem.1, if_neg hmem.2]

theorem foldl_setANSIMode (hes : ∀ e ∈ es, e.1 ∈ trackedANSIModes) :
    es.foldl (fun s e => s.setANSIMode e.1 e.2) s
      = { s with ansiModes := es.foldl (fun d e => d.insert e.1 e.2) s.ansiModes } := by
  induction es generalizing s with
  | nil => rfl
  | cons e es ih =>
    rw [List.foldl_cons, ih fun a ha => hes a (List.mem_cons_of_mem _ ha), setANSIMode,
      if_pos (hes e List.mem_cons_self)]
    rfl

/-- What every mode's own value leaves. -/
structure Moded (p s w : TerminalReplayState) : Prop where
  rest : w.withoutModes = s.withoutModes
  dec : ∀ m, w.decModes.get? m = (p.decModes.get? m).or (s.decModes.get? m)
  saved : w.savedDECModes = s.savedDECModes
  ansi : ∀ m, w.ansiModes.get? m = (p.ansiModes.get? m).or (s.ansiModes.get? m)
  event : (p.mouseEvent = none → s.mouseEvent.getD 0 = 0) →
    w.mouseEvent.getD 0 = p.mouseEvent.getD 0
  format : (p.mouseFormat = none → s.mouseFormat.getD 0 = 0) →
    w.mouseFormat.getD 0 = p.mouseFormat.getD 0

theorem Writable.moded (hp : Writable p) : Moded p s (p.putModes s) := by
  have hnotEvent : ∀ m ∈ mouseEventModes, m ∉ trackedDECModes := by decide
  have hnotFormat : ∀ m ∈ mouseFormatModes, m ∉ trackedDECModes := by decide
  obtain ⟨d, hd, hddec, hdsaved, hdansi, hdevent, hdformat, hdrest⟩ :=
    @foldl_setDECMode s p.decModes.entries fun e he =>
      hp.dec e.1 e.2 (Dict.mem_entries_iff.mp he)
  obtain ⟨e, he⟩ : ∃ e, e = putMouse p.mouseEvent 1000 d := ⟨_, rfl⟩
  obtain ⟨f, hf⟩ : ∃ f, f = putMouse p.mouseFormat 1006 e := ⟨_, rfl⟩
  obtain ⟨hedec, hesaved, heansi, herest⟩ := @putMouse_spec d p.mouseEvent 1000
    (fun m hm => (hp.event m hm).imp_right fun hm =>
      ⟨plain_of_mem (Or.inr (Or.inl hm)), hnotEvent m hm⟩) (by decide)
  obtain ⟨hfdec, hfsaved, hfansi, hfrest⟩ := @putMouse_spec e p.mouseFormat 1006
    (fun m hm => (hp.format m hm).imp_right fun hm =>
      ⟨plain_of_mem (Or.inr (Or.inr hm)), hnotFormat m hm⟩) (by decide)
  have hansi := @foldl_setANSIMode f p.ansiModes.entries fun e he =>
    hp.ansi e.1 e.2 (Dict.mem_entries_iff.mp he)
  rw [← he] at hedec hesaved heansi herest
  rw [← hf] at hfdec hfsaved hfansi hfrest
  rw [putModes, ← hd, ← he, ← hf, hansi]
  constructor
  case rest => exact (hfrest.trans herest).trans hdrest
  case dec =>
    intro m
    dsimp only
    rw [hfdec, hedec, hddec, Dict.get?_foldl_insert p.decModes.sorted]
    rfl
  case saved => exact (hfsaved.trans hesaved).trans hdsaved
  case ansi =>
    intro m
    dsimp only
    rw [Dict.get?_foldl_insert p.ansiModes.sorted, hfansi, heansi, hdansi]
    rfl
  case event =>
    intro hs
    have hformat : f.mouseEvent = e.mouseEvent := hf ▸
      mouseRegister_event.put_other (by decide) (show 1006 ∈ mouseFormatModes by decide) hp.format
    dsimp only
    rw [hformat, he]
    exact mouseRegister_event.put (by decide) (by decide) hp.event fun hn => hdevent ▸ hs hn
  case format =>
    intro hs
    have hevent : e.mouseFormat = d.mouseFormat := he ▸
      mouseRegister_format.put_other (by decide) (show 1000 ∈ mouseEventModes by decide) hp.event
    dsimp only
    rw [hf]
    exact mouseRegister_format.put (by decide) (by decide) hp.format fun hn => by
      rw [hevent, hdformat, hs hn]

/-! ## The whole rebuild -/

/-- A terminal `w` rebuilt from `p`, having been `u`. -/
structure Rebuilt (p u w : TerminalReplayState) : Prop where
  /-- A mode never set that XTSAVE recorded is left as it was saved. -/
  dec : ∀ m, w.decModes.get? m = (p.decModes.get? m).or
    (if m ∈ trackedDECModes then p.savedDECModes.get? m else none)
  saved : ∀ m, w.savedDECModes.get? m
    = (if Plain m then p.savedDECModes.get? m else none).or (u.savedDECModes.get? m)
  ansi : w.ansiModes = p.ansiModes
  event : w.mouseEvent.getD 0 = p.mouseEvent.getD 0
  format : w.mouseFormat.getD 0 = p.mouseFormat.getD 0
  keyFormat : w.modifyKeyFormat = p.modifyKeyFormat
  style : w.cursorStyle = p.cursorStyle
  palette : w.palette = p.palette
  dynamic : w.dynamicColors = p.dynamicColors
  title : w.title = p.title
  directory : w.workingDirectory = p.workingDirectory.or u.workingDirectory
  active : w.isAlternateActive = p.isAlternateActive
  kitty : ∀ b, w.kitty.get b = p.kitty.get b
  savedCursor : ∀ b, SavedAs p w b
  cursor : SameCursor w.cursor p.cursor
  link : w.hyperlink = p.hyperlink
  region : w.scrollRegion = p.scrollRegion

/-- A setting written wherever an earlier one may be left. -/
theorem or_eq_left {α : Type*} {a b : Option α} (h : b.isSome → a.isSome) : a.or b = a := by
  cases a with
  | some v => rfl
  | none => simpa using h

theorem putCursor_eq (s : TerminalReplayState) (designated : PreambleWriter) (c : Cursor)
    (touched : Bool) : ∃ t, s.putCursor designated c touched =
      { s with cursor := (s.putCursor designated c touched).cursor, charsetsTouched := t } := by
  rw [putCursor]
  split
  exacts [⟨_, rfl⟩, ⟨_, rfl⟩]

theorem putLinkAndRegion_eq (s : TerminalReplayState) (hp : Writable p)
    (hlink : s.hyperlink.isSome → p.hyperlinkTouched = true) (hregion : s.scrollRegion = none) :
    ∃ t r, p.putLinkAndRegion s =
      { s with
        hyperlink := p.hyperlink
        hyperlinkTouched := t
        scrollRegion := p.scrollRegion
        scrollRegionTouched := r } := by
  obtain ⟨t, ht⟩ : ∃ t, (if p.hyperlinkTouched then s.setHyperlink p.hyperlink else s)
      = { s with hyperlink := p.hyperlink, hyperlinkTouched := t } := by
    split
    · exact ⟨true, rfl⟩
    case isFalse hne =>
      have hnone : s.hyperlink = none := Option.not_isSome_iff_eq_none.mp fun h => hne (hlink h)
      have hpnone : p.hyperlink = none := Option.eq_none_iff_forall_ne_some.mpr fun text ht =>
        hne (hp.settings.hyperlink text ht).2
      exact ⟨s.hyperlinkTouched, by rw [hpnone, ← hnone]⟩
  rw [putLinkAndRegion, ht]
  cases hr : p.scrollRegion with
  | none => exact ⟨t, s.scrollRegionTouched, by dsimp only; rw [hregion]⟩
  | some r =>
    have hnot := (hp.settings.scrollRegion r hr).2.2.2
    exact ⟨t, true, by simp only [setScrollRegion, if_neg hnot]⟩

/-- **A preamble puts its state in place of any it covers.** -/
theorem rebuilt_of_covers (hp : Writable p) (hu : Sound u) (h : Covers p u) :
    Rebuilt p u (p.rebuild u) := by
  obtain ⟨s, hs, hblank, hstage, hscreens⟩ := h.screens hp hu
  have hdec : ∀ k v, s.decModes.get? k = some v → k ∈ trackedDECModes := by
    intro k v hk
    obtain ⟨v', hv'⟩ := Option.isSome_iff_exists.mp (hblank.dec k (by simp [hk]))
    exact hp.dec k v' hv'
  have hresaved := hp.resaved hdec
  have hmoded := hp.moded (s := p.putSavedModes s)
  obtain ⟨w, hw⟩ : ∃ w, w = p.putModes (p.putSavedModes s) := ⟨_, rfl⟩
  rw [← hw] at hmoded
  -- The settings but modes are the blank terminal's, and the cursor but its origin mode.
  have hrest : w.withoutModes = s.withoutModes := hmoded.rest.trans hresaved.rest
  have hcharsets : (p.putSettings w).cursor.charsets = s.cursor.charsets :=
    congrArg (fun s => s.cursor.charsets) hrest
  have hcursor := Settled.sameCursor (s := p.putSettings w) (hcharsets ▸ hstage.settled)
    hp.cursors.untouched
  obtain ⟨ct, hc⟩ := putCursor_eq (p.putSettings w) (p.shownScreen p.hiddenAlternate.2).2
    p.cursor p.charsetsTouched
  have hlink : (p.putSettings w).hyperlink = s.hyperlink := congrArg (fun s => s.hyperlink) hrest
  have hregion : (p.putSettings w).scrollRegion = s.scrollRegion :=
    congrArg (fun s => s.scrollRegion) hrest
  obtain ⟨lt, rt, hfinal⟩ := putLinkAndRegion_eq
    ((p.putSettings w).putCursor (p.shownScreen p.hiddenAlternate.2).2 p.cursor p.charsetsTouched)
      hp
    (by rw [hc, hlink]; exact hblank.link) (by rw [hc, hregion]; exact hblank.region)
  have hrebuild : p.rebuild u = p.putLinkAndRegion ((p.putSettings w).putCursor
      (p.shownScreen p.hiddenAlternate.2).2 p.cursor p.charsetsTouched) := by
        rw [rebuild, ← hs, ← hw]
  rw [hrebuild, hfinal]
  constructor
  case cursor => exact hcursor
  case link => rfl
  case region => rfl
  all_goals rw [hc]
  case dec =>
    intro m
    have hblankDec := or_eq_left (a := p.decModes.get? m) (b := s.decModes.get? m) (hblank.dec m)
    refine (hmoded.dec m).trans ?_
    rw [hresaved.dec, ← Option.or_assoc]
    cases hpm : p.decModes.get? m with
    | some v => rfl
    | none =>
      rw [hpm, Option.none_or] at hblankDec
      rw [hblankDec, Option.or_none]
  case saved =>
    intro m
    dsimp only [putSettings]
    rw [hmoded.saved, hresaved.saved, hblank.saved]
  case ansi =>
    refine Dict.ext_get? fun m => (hmoded.ansi m).trans ?_
    rw [hresaved.ansi, or_eq_left (hblank.ansi m)]
  case event =>
    refine hmoded.event fun hn => hresaved.event hn ?_
    exact Option.not_isSome_iff_eq_none.mp fun h => absurd (hblank.event h) (by simp [hn])
  case format =>
    refine hmoded.format fun hn => hresaved.format hn ?_
    exact Option.not_isSome_iff_eq_none.mp fun h => absurd (hblank.format h) (by simp [hn])
  case keyFormat =>
    have hw : w.modifyKeyFormat = s.modifyKeyFormat := congrArg (fun s => s.modifyKeyFormat) hrest
    exact or_eq_left (hw ▸ hblank.keyFormat)
  case style =>
    have hw : w.cursorStyle = s.cursorStyle := congrArg (fun s => s.cursorStyle) hrest
    exact or_eq_left (hw ▸ hblank.style)
  case palette =>
    have hw : w.palette = ∅ := (congrArg (fun s => s.palette) hrest).trans hblank.palette
    refine Dict.ext_get? fun k => ?_
    dsimp only [putSettings]
    rw [Dict.get?_foldl_insert p.palette.sorted, hw, Dict.get?_empty, Option.or_none]
    rfl
  case dynamic =>
    have hw : w.dynamicColors = s.dynamicColors := congrArg (fun s => s.dynamicColors) hrest
    refine Dict.ext_get? fun k => ?_
    dsimp only [putSettings]
    rw [Dict.get?_foldl_insert p.dynamicColors.sorted, hw]
    exact or_eq_left (hblank.dynamic k)
  case title =>
    have hw : w.title = s.title := congrArg (fun s => s.title) hrest
    exact or_eq_left (hw ▸ hblank.title)
  case directory =>
    have hw : w.workingDirectory = s.workingDirectory :=
      congrArg (fun s => s.workingDirectory) hrest
    dsimp only [putSettings]
    rw [hw, hblank.directory]
  case active => exact (congrArg (fun s => s.isAlternateActive) hrest).trans hstage.active
  case kitty => exact fun b => (congrArg (fun s => s.kitty.get b) hrest).trans (hscreens b).1
  case savedCursor =>
    intro b
    have hw : w.savedCursor = s.savedCursor := congrArg (fun s => s.savedCursor) hrest
    rw [SavedAs]
    dsimp only [putSettings]
    rw [hw]
    exact (hscreens b).2

/-- Reading a preamble is a run of changes. -/
theorem changes_rebuild (hp : Writable p) (u : TerminalReplayState) : Changes u (p.rebuild u) := by
  have hbounded : Bounded { terminal := u } := bounded_empty.congr rfl rfl rfl rfl id
  have hwrote := writes_preamble hp { terminal := u } 0 ⟨rfl, rfl, rfl⟩
  have hreads := (reads_run { terminal := u } p.preamble 0 hbounded).2
  rwa [hwrote.terminal] at hreads

theorem Sound.rebuild (hu : Sound u) (hp : Writable p) : Sound (p.rebuild u) :=
  hu.changes (changes_rebuild hp u)

/-! ## By effect -/

/-- What a preamble writes back of `t`, read off `w`: every setting by effect, the screen-switching
modes by the screen they show. -/
structure WrittenBack (w t : TerminalReplayState) : Prop where
  decMode : ∀ m, m ∉ alternateScreenModes → w.decMode m = t.decMode m
  ansiMode : ∀ m, (w.ansiModes.get? m).getD (defaultANSIMode m)
    = (t.ansiModes.get? m).getD (defaultANSIMode m)
  mouseEvent : w.mouseEvent.getD 0 = t.mouseEvent.getD 0
  mouseFormat : w.mouseFormat.getD 0 = t.mouseFormat.getD 0
  isAlternateActive : w.isAlternateActive = t.isAlternateActive
  /-- What XTRESTORE reads. -/
  savedDECMode : ∀ m, m ∉ alternateScreenModes →
    (w.savedDECModes.get? m).getD false = (t.savedDECModes.get? m).getD false
  /-- What DECRC reads. -/
  savedCursor : ∀ b, SameCursor ((w.savedCursor.get b).getD {}) ((t.savedCursor.get b).getD {})
  cursor : SameCursor w.cursor t.cursor
  origin : w.cursor.origin = t.cursor.origin
  kitty : w.kitty = t.kitty
  modifyKeyFormat : w.modifyKeyFormat = t.modifyKeyFormat
  cursorStyle : w.cursorStyle = t.cursorStyle
  palette : w.palette = t.palette
  dynamicColors : w.dynamicColors = t.dynamicColors
  hyperlink : w.hyperlink = t.hyperlink
  title : w.title = t.title
  workingDirectory : w.workingDirectory = t.workingDirectory
  scrollRegion : w.scrollRegion = t.scrollRegion

/-- Everything by effect: the screen-switching modes each by its own bit and XTSAVE's record of it,
and a saved cursor with its origin mode. -/
structure SameByEffect (w t : TerminalReplayState) : Prop extends WrittenBack w t where
  screenMode : ∀ m ∈ alternateScreenModes, w.decMode m = t.decMode m
  savedScreenMode : ∀ m ∈ alternateScreenModes,
    (w.savedDECModes.get? m).getD false = (t.savedDECModes.get? m).getD false
  savedOrigin : ∀ b, ((w.savedCursor.get b).getD {}).origin = ((t.savedCursor.get b).getD {}).origin

/-- A DEC mode is read off the register it is kept in. -/
theorem decMode_congr {w t : TerminalReplayState} {m : ℕ} (halt : m ∉ alternateScreenModes)
    (hdec : (w.decModes.get? m).getD (defaultDECMode m) =
      (t.decModes.get? m).getD (defaultDECMode m))
    (hevent : w.mouseEvent.getD 0 = t.mouseEvent.getD 0)
    (hformat : w.mouseFormat.getD 0 = t.mouseFormat.getD 0) : w.decMode m = t.decMode m := by
  have hpos : ∀ m ∈ mouseEventModes ++ mouseFormatModes, m ≠ 0 := by decide
  have hread : ∀ (o : Option ℕ), m ≠ 0 → (o == some m) = (o.getD 0 == m) := by
    intro o hm
    cases o with
    | none => simp [hm.symm]
    | some v => simp
  rw [TerminalReplayState.decMode, TerminalReplayState.decMode, if_neg halt, if_neg halt]
  split_ifs with he hf
  · have hm := hpos m (List.mem_append_left _ he)
    rw [hread _ hm, hread _ hm, hevent]
  · have hm := hpos m (List.mem_append_right _ hf)
    rw [hread _ hm, hread _ hm, hformat]
  · exact hdec

/-- XTSAVE's record of a mode never set is the mode's default. -/
theorem ModesSound.or_saved (h : ModesSound s) (m : ℕ) :
    ((s.decModes.get? m).or (if m ∈ trackedDECModes then s.savedDECModes.get? m else none)).getD
      (defaultDECMode m) = (s.decModes.get? m).getD (defaultDECMode m) := by
  have hkinds : ∀ m ∈ trackedDECModes, m ∉ mouseEventModes ∧ m ∉ mouseFormatModes := by decide
  cases hdec : s.decModes.get? m with
  | some v => rfl
  | none =>
    rw [Option.none_or]
    split_ifs with htracked
    · cases hsaved : s.savedDECModes.get? m with
      | none => rfl
      | some v =>
        obtain ⟨hevent, hformat⟩ := hkinds m htracked
        have huntouched : s.touched m = false := by
          rw [touched, if_neg hevent, if_neg hformat, hdec]
          rfl
        exact h.saved m v hsaved (plain_of_mem (Or.inl htracked)).1 huntouched
    · rfl

/-- XTSAVE never records 1048 on. -/
theorem ModesSound.saved_1048 (h : ModesSound s) :
    (s.savedDECModes.get? 1048).getD false = false := by
  cases hsaved : s.savedDECModes.get? 1048 with
  | none => rfl
  | some v =>
    refine h.saved 1048 v hsaved (by decide) ?_
    rw [touched, if_neg (by decide), if_neg (by decide)]
    cases hdec : s.decModes.get? 1048 with
    | none => rfl
    | some v => exact absurd (h.dec 1048 v hdec) (by decide)

/-- A sound state is written back whole into a fresh terminal. -/
theorem Sound.writtenBack (h : Sound s) : WrittenBack (s.rebuild {}) s := by
  have hr := rebuilt_of_covers h.writable sound_empty (covers_empty s)
  have hsound := sound_empty.rebuild h.writable
  constructor
  case decMode =>
    refine fun m halt => decMode_congr halt ?_ hr.event hr.format
    rw [hr.dec, h.modes.or_saved]
  case ansiMode => exact fun m => by rw [hr.ansi]
  case mouseEvent => exact hr.event
  case mouseFormat => exact hr.format
  case isAlternateActive => exact hr.active
  case savedDECMode =>
    intro m halt
    rw [hr.saved, Dict.get?_empty, Option.or_none]
    split_ifs with hplain
    · rfl
    · have hm : m = 1048 := by
        by_contra hne
        exact hplain ⟨halt, hne⟩
      rw [hm, h.modes.saved_1048]
      rfl
  case savedCursor => exact hr.savedCursor
  case cursor => exact hr.cursor
  case origin =>
    rw [hsound.modes.origin, h.modes.origin, hr.dec]
    exact h.modes.or_saved 6
  case kitty =>
    have hprimary := hr.kitty false
    have halternate := hr.kitty true
    rw [Screens.get_false, Screens.get_false] at hprimary
    rw [Screens.get_true, Screens.get_true] at halternate
    cases hk : s.kitty
    cases hw : (s.rebuild {}).kitty
    simp_all
  case modifyKeyFormat => exact hr.keyFormat
  case cursorStyle => exact hr.style
  case palette => exact hr.palette
  case dynamicColors => exact hr.dynamic
  case hyperlink => exact hr.link
  case title => exact hr.title
  case workingDirectory => rw [hr.directory]; exact Option.or_none
  case scrollRegion => exact hr.region

end TerminalReplayState

namespace TerminalStreamTracker

open TerminalReplayState

/-- A fresh tracker that has read `stream`. -/
def tracked (stream : List UInt8) : TerminalStreamTracker :=
  ({} : TerminalStreamTracker).consume stream 0

theorem sound_tracked (stream : List UInt8) : Sound (tracked stream).terminal := by
  rw [tracked, consume_eq_run]
  exact sound_of_stream stream 0

/-- A fresh, recording tracker that has read the preamble of `p`. -/
def reread (p : TerminalReplayState) : TerminalStreamTracker :=
  ({} : TerminalStreamTracker).beginRecording.consume p.preamble 0

theorem wrote_reread {p : TerminalReplayState} (hp : Writable p) :
    Wrote (fun s => p.rebuild s) ({} : TerminalStreamTracker).beginRecording (reread p) := by
  rw [reread, consume_eq_run]
  exact writes_preamble hp ({} : TerminalStreamTracker).beginRecording 0 ⟨rfl, rfl, rfl⟩

/-- **The preamble of a state some stream leaves, read by a fresh tracker**: the parser rests,
nothing is recorded, and the state is back by effect. -/
theorem preamble_writtenBack (stream : List UInt8) :
    (reread (tracked stream).terminal).isQuiescent = true ∧
      (reread (tracked stream).terminal).takeExcisions
        (tracked stream).terminal.preamble.length = [] ∧
      WrittenBack (reread (tracked stream).terminal).terminal (tracked stream).terminal := by
  have hsound := sound_tracked stream
  have hwrote := wrote_reread hsound.writable
  refine ⟨isQuiescent_iff.mpr hwrote.rest, ?_, ?_⟩
  · rw [takeExcisions, if_neg (not_not.mpr hwrote.rest.zmodem), hwrote.excisions]
    rfl
  · rw [hwrote.terminal]
    exact hsound.writtenBack

/-- Origin mode saved with a cursor, and a switch to the alternate screen by two modes, the first
recorded by XTSAVE. -/
def switchedTwice : List UInt8 :=
  csi (ascii "?6h") ++ [0x1B, 0x37] ++ csi (ascii "?6l") ++ csi (ascii "?47h") ++ csi (ascii "?47s")
    ++ csi (ascii "?1047h")

/-- Neither the first mode's bit, nor XTSAVE's record of it, nor the saved origin mode is written
back. -/
theorem preamble_not_sameByEffect :
    ¬ SameByEffect (reread (tracked switchedTwice).terminal).terminal
      (tracked switchedTwice).terminal ∧
      (tracked switchedTwice).terminal.decMode 47 = true ∧
      (reread (tracked switchedTwice).terminal).terminal.decMode 47 = false ∧
      (tracked switchedTwice).terminal.savedDECModes.get? 47 = some true ∧
      (reread (tracked switchedTwice).terminal).terminal.savedDECModes.get? 47 = none ∧
      ((tracked switchedTwice).terminal.savedCursor.primary.getD {}).origin = true ∧
      ((reread (tracked switchedTwice).terminal).terminal.savedCursor.primary.getD {}).origin
        = false := by
  refine ⟨fun h => absurd (h.screenMode 47 (by decide)) (by decide +kernel), ?_⟩
  decide +kernel

end TerminalStreamTracker
