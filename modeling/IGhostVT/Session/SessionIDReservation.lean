import IGhostVT.Lib.Decimal
import IGhostVT.Lib.Run

/-!
# Session/SessionIDReservation — session ids that outlive the process that hands them out

An io process reserves ids in blocks: the end of the last block reserved is kept in a file as
decimal text, and a replacement starts there.  Any number of processes share the file.

A reservation never lowers the file, so the stored value stays above every id handed out
(`Backed`).  What it does not do is move the *reserving* process past what the file says: a process
whose block is spent reserves from its own `next`, also when another has reserved there meanwhile.
`run_fresh_iff` says that this is the one way an id is handed out twice.
-/

/-- The number a reservation file holds: the digits among its first 31 bytes, if they fit a
`UInt64`. -/
def storedID (file : List UInt8) : Option ℕ :=
  (parseDigits ((file.take 31).takeWhile isDigit)).filter fun n => n < 2 ^ 64

/-- The hand of one io process on the reservation file. -/
structure SessionIDReservation where
  next : ℕ
  reservedEnd : ℕ
deriving DecidableEq

namespace SessionIDReservation

/-- Ids reserved at a time. -/
def blockSize : ℕ := 64

/-- Raises the stored value to at least `value`: what is stored afterwards, and the file. -/
def update (file : List UInt8) (value : ℕ) : ℕ × List UInt8 :=
  let result := max ((storedID file).getD 0) value
  if storedID file = some result then (result, file) else (result, decimal result ++ [0x0A])

/-- A process comes up: it starts where the file ends, at 1 at the least. -/
def init (file : List UInt8) : SessionIDReservation × List UInt8 :=
  let start := max (update file 0).1 1
  ({ next := start, reservedEnd := start }, (update file 0).2)

/-- The next id, reserving another block first when this one is spent.  `&+` wraps at `2 ^ 64`. -/
def take (r : SessionIDReservation) (file : List UInt8) :
    ℕ × SessionIDReservation × List UInt8 :=
  if r.reservedEnd ≤ r.next then
    let wanted := (r.next + blockSize) % 2 ^ 64
    (r.next, { next := (r.next + 1) % 2 ^ 64, reservedEnd := max (update file wanted).1 wanted },
      (update file wanted).2)
  else (r.next, { r with next := (r.next + 1) % 2 ^ 64 }, file)

/-! ## The processes and their file -/

/-- Processes sharing one file, and every id they have returned, last first. -/
structure Shared where
  file : List UInt8
  processes : ℕ → Option SessionIDReservation := fun _ => none
  returned : List ℕ := []

/-- What can happen next. -/
inductive Event
  /-- Process `p` starts, or one in its place. -/
  | initialise (p : ℕ)
  /-- Process `p` takes an id. -/
  | take (p : ℕ)
deriving DecidableEq

namespace Shared

/-- One event; a process that has not started takes nothing. -/
def step (s : Shared) : Event → Shared
  | .initialise p =>
    let (r, file) := init s.file
    { s with file, processes := Function.update s.processes p (some r) }
  | .take p =>
    match s.processes p with
    | none => s
    | some r =>
      let (id, r, file) := r.take s.file
      { file, processes := Function.update s.processes p (some r), returned := id :: s.returned }

/-- The value in the file, 0 when it holds none. -/
def stored (s : Shared) : ℕ := (storedID s.file).getD 0

/-- No id went out twice, and the file is above every one that did. -/
def Fresh (s : Shared) : Prop := s.returned.Nodup ∧ ∀ id ∈ s.returned, id < s.stored

/-- Ids are taken below `2 ^ 64` less a block. -/
def InRange (s : Shared) : Event → Prop
  | .initialise _ => True
  | .take p => ∀ r ∈ s.processes p, r.next < 2 ^ 64 - blockSize

/-- A process that has to reserve finds the file not past its own next id: nobody has reserved
since it last read the file. -/
def Aligned (s : Shared) : Event → Prop
  | .initialise _ => True
  | .take p => ∀ r ∈ s.processes p, r.reservedEnd ≤ r.next → s.stored ≤ r.next

instance (s : Shared) : (e : Event) → Decidable (s.InRange e)
  | .initialise _ => inferInstanceAs (Decidable True)
  | .take p => inferInstanceAs (Decidable (∀ r ∈ s.processes p, _))

instance (s : Shared) : (e : Event) → Decidable (s.Aligned e)
  | .initialise _ => inferInstanceAs (Decidable True)
  | .take p => inferInstanceAs (Decidable (∀ r ∈ s.processes p, _))

end Shared
end SessionIDReservation

/-! ## The file -/

open SessionIDReservation

theorem storedID_lt {file : List UInt8} {n : ℕ} (h : storedID file = some n) : n < 2 ^ 64 := by
  simpa using (Option.filter_eq_some_iff.mp h).2

/-- **A number written to the file is read back.** -/
theorem storedID_decimal {n : ℕ} (h : n < 2 ^ 64) : storedID (decimal n ++ [0x0A]) = some n := by
  have hlen : (decimal n).length ≤ 20 := length_decimal_le (by norm_num) (by omega)
  have htake : (decimal n ++ [0x0A]).take 31 = decimal n ++ [0x0A] :=
    List.take_of_length_le (by simp only [List.length_append, List.length_singleton]; omega)
  have hall : ∀ b ∈ decimal n, isDigit b = true := fun b hb => isDigit_of_mem_decimal hb
  have hwhile : (decimal n ++ [0x0A]).takeWhile isDigit = decimal n := by
    rw [List.takeWhile_append_of_pos hall, List.takeWhile_cons_of_neg (by decide), List.append_nil]
  have hparse : parseDigits (decimal n) = some n := by
    have hne : (decimal n).isEmpty = false := by
      simpa [List.isEmpty_eq_false_iff] using decimal_ne_nil n
    have hdig : (decimal n).all isDigit = true := List.all_eq_true.mpr hall
    rw [parseDigits, hne, hdig, digitsValue_decimal]
    rfl
  rw [storedID, htake, hwhile, hparse, Option.filter_some]
  exact if_pos (decide_eq_true h)

theorem getD_storedID_lt (file : List UInt8) : (storedID file).getD 0 < 2 ^ 64 := by
  cases h : storedID file with
  | none => norm_num
  | some n => exact storedID_lt h

theorem update_fst (file : List UInt8) (value : ℕ) :
    (update file value).1 = max ((storedID file).getD 0) value := by
  dsimp only [update]
  split_ifs <;> rfl

/-- **What a reservation leaves in the file**: the larger of what was there and its own end. -/
theorem storedID_update (file : List UInt8) {value : ℕ} (h : value < 2 ^ 64) :
    storedID (update file value).2 = some (max ((storedID file).getD 0) value) := by
  dsimp only [update]
  split_ifs with hs
  · exact hs
  · exact storedID_decimal (max_lt (getD_storedID_lt file) h)

namespace SessionIDReservation
namespace Shared

/-- Where the next block starts, if the process that reserves it is up to date. -/
def frontier (s : Shared) : ℕ := max s.stored 1

/-! ## What a step does -/

/-- The processes after one of them changed. -/
theorem mem_update {f : ℕ → Option SessionIDReservation} {p q : ℕ} {x r : SessionIDReservation} :
    r ∈ Function.update f p (some x) q ↔ (q = p ∧ r = x) ∨ (q ≠ p ∧ r ∈ f q) := by
  by_cases h : q = p
  · subst h
    simp [eq_comm]
  · simp [h]

/-- A process comes up at the frontier, and the file says what it said. -/
theorem step_initialise (s : Shared) (p : ℕ) : ∃ file,
    (storedID file).getD 0 = s.stored ∧
      s.step (.initialise p) = { s with
        file
        processes := Function.update s.processes p (some ⟨s.frontier, s.frontier⟩) } := by
  refine ⟨(update s.file 0).2, ?_, ?_⟩
  · rw [storedID_update s.file (by norm_num), Option.getD_some, Nat.max_zero, stored]
  · simp only [step, init, update_fst, Nat.max_zero, frontier, stored]

/-- A take from a block in hand. -/
theorem step_take_held {s : Shared} {p : ℕ} {r : SessionIDReservation} (hr : s.processes p = some r)
    (hrange : r.next < 2 ^ 64 - blockSize) (hheld : r.next < r.reservedEnd) :
    s.step (.take p) = { s with
      processes := Function.update s.processes p (some ⟨r.next + 1, r.reservedEnd⟩)
      returned := r.next :: s.returned } := by
  have hwrap : (r.next + 1) % 2 ^ 64 = r.next + 1 :=
    Nat.mod_eq_of_lt (by rw [blockSize] at hrange; omega)
  simp only [step, hr, take, if_neg (not_le.mpr hheld), hwrap]

/-- **A take that reserves** raises the file and its own end to a block past `next`, or to what the
file says already. -/
theorem step_take_spent {s : Shared} {p : ℕ} {r : SessionIDReservation}
    (hr : s.processes p = some r) (hrange : r.next < 2 ^ 64 - blockSize)
    (hspent : r.reservedEnd ≤ r.next) : ∃ file,
    (storedID file).getD 0 = max s.stored (r.next + blockSize) ∧
      s.step (.take p) =
        { file
          processes := Function.update s.processes p
            (some ⟨r.next + 1, max s.stored (r.next + blockSize)⟩)
          returned := r.next :: s.returned } := by
  rw [blockSize] at *
  have hwrap : (r.next + 1) % 2 ^ 64 = r.next + 1 := Nat.mod_eq_of_lt (by omega)
  have hwanted : (r.next + 64) % 2 ^ 64 = r.next + 64 := Nat.mod_eq_of_lt (by omega)
  refine ⟨(update s.file (r.next + 64)).2, ?_, ?_⟩
  · rw [storedID_update s.file (by omega), Option.getD_some, stored]
  · simp only [step, hr, take, if_pos hspent, blockSize, hwrap, hwanted, update_fst, stored,
      max_eq_left (le_max_right _ _)]

theorem step_take_none {s : Shared} {p : ℕ} (hr : s.processes p = none) : s.step (.take p) = s := by
  simp only [step, hr]

/-! ## The file is above every id -/

/-- A process holds ids up to `reservedEnd`, which the file is not below. -/
structure Backed (s : Shared) : Prop where
  below : ∀ id ∈ s.returned, id < s.stored
  pos : ∀ p, ∀ r ∈ s.processes p, 1 ≤ r.next
  ordered : ∀ p, ∀ r ∈ s.processes p, r.next ≤ r.reservedEnd
  known : ∀ p, ∀ r ∈ s.processes p, r.reservedEnd ≤ s.frontier

theorem Backed.lt_stored {s : Shared} (h : s.Backed) {p : ℕ} {r : SessionIDReservation}
    (hr : s.processes p = some r) (hlt : r.next < r.reservedEnd) : r.reservedEnd ≤ s.stored := by
  have h1 := h.pos p r hr
  have h2 := h.known p r hr
  rw [frontier] at h2
  omega

theorem Backed.initialise {s : Shared} (h : s.Backed) (p : ℕ) :
    (s.step (.initialise p)).Backed := by
  obtain ⟨file, hfile, heq⟩ := step_initialise s p
  rw [heq]
  refine ⟨fun id hid => ?_, fun q r hr => ?_, fun q r hr => ?_, fun q r hr => ?_⟩
  · exact (h.below id hid).trans_eq hfile.symm
  · rcases mem_update.mp hr with ⟨-, rfl⟩ | ⟨-, hr⟩
    · exact le_max_right _ _
    · exact h.pos q r hr
  · rcases mem_update.mp hr with ⟨-, rfl⟩ | ⟨-, hr⟩
    · exact le_rfl
    · exact h.ordered q r hr
  · rw [frontier, stored, hfile, ← frontier]
    rcases mem_update.mp hr with ⟨-, rfl⟩ | ⟨-, hr⟩
    · exact le_rfl
    · exact h.known q r hr

theorem Backed.take {s : Shared} (h : s.Backed) (p : ℕ) (hrange : s.InRange (.take p)) :
    (s.step (.take p)).Backed := by
  cases hr : s.processes p with
  | none => rwa [step_take_none hr]
  | some r =>
    have hpos := h.pos p r hr
    have hknown := h.known p r hr
    have hblock : blockSize = 64 := rfl
    rcases lt_or_ge r.next r.reservedEnd with hheld | hspent
    · have hstored := h.lt_stored hr hheld
      rw [step_take_held hr (hrange r hr) hheld]
      refine ⟨fun id hid => ?_, fun q t ht => ?_, fun q t ht => ?_, fun q t ht => ?_⟩
      · rcases List.mem_cons.mp hid with rfl | hid
        · exact hheld.trans_le hstored
        · exact h.below id hid
      · rcases mem_update.mp ht with ⟨-, rfl⟩ | ⟨-, ht⟩
        · exact Nat.le_add_left 1 r.next
        · exact h.pos q t ht
      · rcases mem_update.mp ht with ⟨-, rfl⟩ | ⟨-, ht⟩
        · exact hheld
        · exact h.ordered q t ht
      · rcases mem_update.mp ht with ⟨-, rfl⟩ | ⟨-, ht⟩
        · exact hknown
        · exact h.known q t ht
    · obtain ⟨file, hfile, heq⟩ := step_take_spent hr (hrange r hr) hspent
      have hup : s.stored ≤ (storedID file).getD 0 := hfile ▸ le_max_left _ _
      rw [heq]
      refine ⟨fun id hid => ?_, fun q t ht => ?_, fun q t ht => ?_, fun q t ht => ?_⟩
      · rcases List.mem_cons.mp hid with rfl | hid
        · exact lt_of_lt_of_eq (by omega) hfile.symm
        · exact (h.below id hid).trans_le hup
      · rcases mem_update.mp ht with ⟨-, rfl⟩ | ⟨-, ht⟩
        · exact Nat.le_add_left 1 r.next
        · exact h.pos q t ht
      · rcases mem_update.mp ht with ⟨-, rfl⟩ | ⟨-, ht⟩
        · dsimp only
          omega
        · exact h.ordered q t ht
      · rcases mem_update.mp ht with ⟨-, rfl⟩ | ⟨-, ht⟩
        · exact le_max_of_le_left hfile.ge
        · exact (h.known q t ht).trans (max_le_max_right 1 hup)

/-- **The file never falls to an id that went out**, whatever the processes do. -/
theorem Backed.step {s : Shared} {e : Event} (h : s.Backed) (hrange : s.InRange e) :
    (s.step e).Backed := by
  cases e with
  | initialise p => exact h.initialise p
  | take p => exact h.take p hrange

theorem backed_start (file : List UInt8) : ({ file } : Shared).Backed :=
  ⟨nofun, nofun, nofun, nofun⟩

/-! ## Blocks that do not overlap -/

/-- The blocks in hand do not overlap, and hold no id that went out.  A process's end that the file
has passed *has* gone out: the block that starts there was reserved, and a block's first id goes out
with its reservation. -/
structure Sound (s : Shared) : Prop extends s.Backed where
  nodup : s.returned.Nodup
  passed : ∀ p, ∀ r ∈ s.processes p, r.reservedEnd < s.frontier → r.reservedEnd ∈ s.returned
  unused : ∀ p, ∀ r ∈ s.processes p, ∀ id ∈ s.returned, r.next ≤ id → r.reservedEnd ≤ id
  apart : ∀ p, ∀ r ∈ s.processes p, ∀ q, ∀ t ∈ s.processes q, p ≠ q →
    ∀ id, r.next ≤ id → id < r.reservedEnd → t.next ≤ id → t.reservedEnd ≤ id

theorem sound_start (file : List UInt8) : ({ file } : Shared).Sound :=
  ⟨backed_start file, List.nodup_nil, nofun, nofun, nofun⟩

theorem Sound.initialise {s : Shared} (h : s.Sound) (p : ℕ) : (s.step (.initialise p)).Sound := by
  have hb := h.toBacked.initialise p
  obtain ⟨file, hfile, heq⟩ := step_initialise s p
  rw [heq] at hb ⊢
  refine ⟨hb, h.nodup, fun q r hr hlt => ?_, fun q r hr id hid hle => ?_,
    fun q r hr q' t ht hne id hle hlt hle' => ?_⟩
  · rw [frontier, stored, hfile, ← frontier] at hlt
    rcases mem_update.mp hr with ⟨-, rfl⟩ | ⟨-, hr⟩
    · exact absurd hlt (lt_irrefl _)
    · exact h.passed q r hr hlt
  · rcases mem_update.mp hr with ⟨-, rfl⟩ | ⟨-, hr⟩
    · exact hle
    · exact h.unused q r hr id hid hle
  · -- A process that has just come up holds nothing.
    rcases mem_update.mp hr with ⟨-, rfl⟩ | ⟨-, hr⟩
    · exact absurd hlt (not_lt.mpr hle)
    · rcases mem_update.mp ht with ⟨-, rfl⟩ | ⟨-, ht⟩
      · exact hle'
      · exact h.apart q r hr q' t ht hne id hle hlt hle'

/-- The id a process that is up to date is about to return did not go out before. -/
theorem Sound.next_notMem {s : Shared} (h : s.Sound) {p : ℕ} {r : SessionIDReservation}
    (hr : s.processes p = some r) (hal : s.Aligned (.take p)) : r.next ∉ s.returned := by
  intro hmem
  have hend := h.unused p r hr r.next hmem le_rfl
  have hstored := hal r hr hend
  have hbelow := h.below r.next hmem
  omega

/-- A take from a block in hand keeps the blocks apart. -/
theorem Sound.take_held {s : Shared} (h : s.Sound) {p : ℕ} {r : SessionIDReservation}
    (hr : s.processes p = some r) (hrange : s.InRange (.take p)) (hal : s.Aligned (.take p))
    (hheld : r.next < r.reservedEnd) : (s.step (.take p)).Sound := by
  have hb := h.toBacked.take p hrange
  rw [step_take_held hr (hrange r hr) hheld] at hb ⊢
  refine ⟨hb, List.nodup_cons.mpr ⟨h.next_notMem hr hal, h.nodup⟩, fun q t ht hlt => ?_,
    fun q t ht id hid hle => ?_, fun q t ht q' u hu hne id hle hlt hle' => ?_⟩
  · refine List.mem_cons_of_mem _ ?_
    rcases mem_update.mp ht with ⟨-, rfl⟩ | ⟨-, ht⟩
    · exact h.passed p r hr hlt
    · exact h.passed q t ht hlt
  · rcases mem_update.mp ht with ⟨-, rfl⟩ | ⟨hqp, ht⟩
    · rcases List.mem_cons.mp hid with rfl | hid
      · exact absurd hle (Nat.not_succ_le_self _)
      · exact h.unused p r hr id hid (Nat.le_of_succ_le hle)
    · rcases List.mem_cons.mp hid with rfl | hid
      · exact h.apart p r hr q t ht (Ne.symm hqp) _ le_rfl hheld hle
      · exact h.unused q t ht id hid hle
  · rcases mem_update.mp ht with ⟨rfl, rfl⟩ | ⟨hqp, ht⟩
    · rcases mem_update.mp hu with ⟨rfl, -⟩ | ⟨-, hu⟩
      · exact absurd rfl hne
      · exact h.apart q r hr q' u hu hne id (Nat.le_of_succ_le hle) hlt hle'
    · rcases mem_update.mp hu with ⟨hq', rfl⟩ | ⟨-, hu⟩
      · exact h.apart q t ht p r hr (hq' ▸ hne) id hle hlt (Nat.le_of_succ_le hle')
      · exact h.apart q t ht q' u hu hne id hle hlt hle'

/-- **A reservation by a process that is up to date starts at the frontier**, past every id that
went out and every block in hand. -/
theorem Sound.take_spent {s : Shared} (h : s.Sound) {p : ℕ} {r : SessionIDReservation}
    (hr : s.processes p = some r) (hrange : s.InRange (.take p)) (hal : s.Aligned (.take p))
    (hspent : r.reservedEnd ≤ r.next) : (s.step (.take p)).Sound := by
  have hb := h.toBacked.take p hrange
  obtain ⟨file, hfile, heq⟩ := step_take_spent hr (hrange r hr) hspent
  have hstored := hal r hr hspent
  have hend : r.reservedEnd = r.next := le_antisymm hspent (h.ordered p r hr)
  have hfront : s.frontier = r.next :=
    le_antisymm (max_le hstored (h.pos p r hr)) (hend ▸ h.known p r hr)
  rw [max_eq_right (hstored.trans (Nat.le_add_right _ _))] at hfile heq
  rw [heq] at hb ⊢
  refine ⟨hb, List.nodup_cons.mpr ⟨h.next_notMem hr hal, h.nodup⟩, fun q t ht hlt => ?_,
    fun q t ht id hid hle => ?_, fun q t ht q' u hu hne id hle hlt hle' => ?_⟩
  · rcases mem_update.mp ht with ⟨-, rfl⟩ | ⟨-, ht⟩
    · rw [frontier, stored, hfile] at hlt
      dsimp only at hlt
      have hblock : blockSize = 64 := rfl
      omega
    · -- An end at the old frontier is the id that goes out now.
      rcases lt_or_eq_of_le (h.known q t ht) with hlt' | heq'
      · exact List.mem_cons_of_mem _ (h.passed q t ht hlt')
      · exact heq'.trans hfront ▸ List.mem_cons_self
  · rcases mem_update.mp ht with ⟨-, rfl⟩ | ⟨-, ht⟩
    · rcases List.mem_cons.mp hid with rfl | hid
      · exact absurd hle (Nat.not_succ_le_self _)
      · exact absurd (h.below id hid) (by dsimp only at hle; omega)
    · rcases List.mem_cons.mp hid with rfl | hid
      · exact hfront ▸ h.known q t ht
      · exact h.unused q t ht id hid hle
  · rcases mem_update.mp ht with ⟨rfl, rfl⟩ | ⟨-, ht⟩
    · rcases mem_update.mp hu with ⟨rfl, -⟩ | ⟨-, hu⟩
      · exact absurd rfl hne
      · exact (h.known q' u hu).trans (hfront ▸ Nat.le_of_succ_le hle)
    · rcases mem_update.mp hu with ⟨-, rfl⟩ | ⟨-, hu⟩
      · exact absurd (hlt.trans_le (h.known q t ht)) (by dsimp only at hle'; omega)
      · exact h.apart q t ht q' u hu hne id hle hlt hle'

theorem Sound.step {s : Shared} {e : Event} (h : s.Sound) (hrange : s.InRange e)
    (hal : s.Aligned e) : (s.step e).Sound := by
  cases e with
  | initialise p => exact h.initialise p
  | take p =>
    cases hr : s.processes p with
    | none => rwa [step_take_none hr]
    | some r =>
      rcases lt_or_ge r.next r.reservedEnd with hheld | hspent
      · exact h.take_held hr hrange hal hheld
      · exact h.take_spent hr hrange hal hspent

/-- **A process that reserves behind the file hands out an id a second time, at once.** -/
theorem Sound.not_nodup_of_not_aligned {s : Shared} {e : Event} (h : s.Sound)
    (hrange : s.InRange e) (hal : ¬ s.Aligned e) : ¬ (s.step e).returned.Nodup := by
  cases e with
  | initialise p => exact absurd trivial hal
  | take p =>
    simp only [Aligned, not_forall] at hal
    obtain ⟨r, hr, hspent, hpast⟩ := hal
    have hend : r.reservedEnd = r.next := le_antisymm hspent (h.ordered p r hr)
    have hmem : r.next ∈ s.returned :=
      hend ▸ h.passed p r hr (lt_max_of_lt_left (by omega))
    obtain ⟨file, -, heq⟩ := step_take_spent hr (hrange r hr) hspent
    rw [heq]
    exact fun hnodup => (List.nodup_cons.mp hnodup).1 hmem

/-- What went out stays out. -/
theorem nodup_of_step {s : Shared} {e : Event} (h : (s.step e).returned.Nodup) :
    s.returned.Nodup := by
  cases e with
  | initialise p => exact h
  | take p =>
    rw [Shared.step] at h
    cases hr : s.processes p with
    | none => rwa [hr] at h
    | some r =>
      rw [hr] at h
      exact (List.nodup_cons.mp h).2

/-! ## Every interleaving -/

/-- **No id goes out twice exactly when every process that reserves is up to date**; and the file
is above every id that went out in any case. -/
theorem run_fresh_iff (file : List UInt8) (events : List Event)
    (hrange : Run.Along step InRange { file } events) :
    ((Run.after step { file } events).Fresh ↔ Run.Along step Aligned { file } events) ∧
      ∀ id ∈ (Run.after step { file } events).returned,
        id < (Run.after step { file } events).stored := by
  have hbelow := (hrange.invariant (fun _ _ h hr => Backed.step h hr) events
    (backed_start file)).below
  have hnodup := Run.holds_iff_along (fun _ _ h hr hp => Sound.step h hr hp) (fun _ h => h.nodup)
    (fun _ _ h hr hp => h.not_nodup_of_not_aligned hr hp) (fun _ _ h => nodup_of_step h) events
    (sound_start file) hrange
  exact ⟨⟨fun h => hnodup.mp h.1, fun h => ⟨hnodup.mpr h, hbelow⟩⟩, hbelow⟩

/-- A process, and the one that replaces it. -/
def replaced : List Event := [.initialise 0, .take 0, .initialise 1, .take 1]

theorem run_fresh_replaced :
    Run.Along step InRange { file := [] } replaced ∧
    (Run.after step { file := [] } replaced).Fresh :=
  ⟨by decide, (run_fresh_iff [] replaced (by decide)).1.mpr (by decide)⟩

/-- Two processes come up before either takes an id. -/
def overlapping : List Event := [.initialise 0, .initialise 1, .take 0, .take 1]

/-- Both hand out 1. -/
theorem run_overlapping_not_fresh : ¬ (Run.after step { file := [] } overlapping).Fresh := by
  have hreturned : (Run.after step { file := [] } overlapping).returned = [1, 1] := by decide
  intro h
  have hnodup := h.1
  rw [hreturned] at hnodup
  exact absurd hnodup (by decide)

end Shared
end SessionIDReservation
