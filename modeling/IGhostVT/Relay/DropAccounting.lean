import IGhostVT.Relay.DropZone
import Mathlib.Algebra.Ring.Int.Defs

/-!
# Relay/DropAccounting — what the zone counts, and who holds and writes its files

Three invariants that do not look at one another's data: `Quota` at the stored bytes, `Holds` at
holders and clocks, `Writers` at the sessions that are uploading.  Each is kept by the few changes
the operations are made of: a file put in, changed or taken out, a session going on to its next
task.
-/

open Relay

namespace DropZone

variable {z z' : DropZone} {id conn : ℕ} {f f' : DropFile} {d : DropSession}

/-- How many open sessions put or got the file and hold it still. -/
def holderCount (z : DropZone) (id : ℕ) : ℕ :=
  z.sessions.entries.countP fun e => id ∈ e.2.held

/-- This session is writing this file. -/
def IsWriter (z : DropZone) (conn id : ℕ) : Prop :=
  ∃ d, z.sessions.get? conn = some d ∧ d.task.writes = some id

/-- The stored bytes add up, and the limits hold. -/
structure Quota (z : DropZone) : Prop where
  nonneg : ∀ id f, z.files.get? id = some f → 0 ≤ f.stored
  stored : z.stored = (z.files.entries.map fun e => e.2.stored).sum
  stored_le : z.stored ≤ z.limits.dropBytes
  file_le : ∀ id f, z.files.get? id = some f → f.stored ≤ z.limits.dropFileBytes
  files_le : z.files.keys.length ≤ z.limits.dropFiles

/-- What a session has reserved is among what its file has stored. -/
def Reserved (z : DropZone) : Prop :=
  ∀ conn d id n f, z.sessions.get? conn = some d → d.task = .copying id n →
    z.files.get? id = some f → n ≤ f.stored

/-- Holders are counted, and a file's clock runs while it has none. -/
structure Holds (z : DropZone) : Prop where
  holders : ∀ id f, z.files.get? id = some f → f.holders = z.holderCount id
  expires : ∀ id f, z.files.get? id = some f → (f.expires = none ↔ 0 < f.holders)
  nodup : ∀ conn d, z.sessions.get? conn = some d → d.held.Nodup
  made : ∀ id f, z.files.get? id = some f → id < z.ids
  held_made : ∀ conn d, z.sessions.get? conn = some d → ∀ id ∈ d.held, id < z.ids

/-- A file that is being written has one writer, and the writer holds it. -/
structure Writers (z : DropZone) : Prop where
  writing : ∀ id f, z.files.get? id = some f → (f.writing = true ↔ ∃ conn, z.IsWriter conn id)
  unique : ∀ id conn conn', z.IsWriter conn id → z.IsWriter conn' id → conn = conn'
  held : ∀ conn d id, z.sessions.get? conn = some d → d.task.writes = some id → id ∈ d.held

/-- What is left after an erasure was there before. -/
theorem get?_of_erase {α : Type} {dict : Dict ℕ α} {k k' : ℕ} {v : α}
    (h : (dict.erase k).get? k' = some v) : dict.get? k' = some v := by
  rw [Dict.get?_erase] at h
  split_ifs at h
  exact h

/-! ## Stored bytes

The room files take is the sum over them, and never more than the zone's limits. -/

namespace Quota

/-- The same files under the same limits take the same room. -/
theorem of_eq (h : Quota z) (hlimits : z'.limits = z.limits) (hfiles : z'.files = z.files)
    (hstored : z'.stored = z.stored) : Quota z' where
  nonneg := by rw [hfiles]; exact h.nonneg
  stored := by rw [hstored, hfiles]; exact h.stored
  stored_le := by rw [hstored, hlimits]; exact h.stored_le
  file_le := by rw [hfiles, hlimits]; exact h.file_le
  files_le := by rw [hfiles, hlimits]; exact h.files_le

/-- A file there is, changed. -/
theorem insert (h : Quota z) (hget : z.files.get? id = some f) (hlimits : z'.limits = z.limits)
    (hfiles : z'.files = z.files.insert id f')
    (hstored : z'.stored = z.stored + (f'.stored - f.stored)) (hle : z'.stored ≤ z.limits.dropBytes)
    (hfile : f'.stored ≤ z.limits.dropFileBytes) (hpos : 0 ≤ f'.stored) : Quota z' where
  nonneg id' g hget' := by
    rw [hfiles, Dict.get?_insert] at hget'
    split_ifs at hget'
    · cases hget'; exact hpos
    · exact h.nonneg id' g hget'
  stored := by
    have hsum := h.stored
    rw [Dict.sum_entries hget] at hsum
    rw [hstored, hfiles, Dict.sum_insert, hsum]
    dsimp only
    omega
  stored_le := by rw [hlimits]; exact hle
  file_le id' g hget' := by
    rw [hfiles, Dict.get?_insert] at hget'
    rw [hlimits]
    split_ifs at hget'
    · cases hget'; exact hfile
    · exact h.file_le id' g hget'
  files_le := by
    have hlength := h.files_le
    rw [Dict.length_keys hget] at hlength
    rw [hfiles, hlimits, Dict.length_keys_insert]
    exact hlength

/-- A change that leaves the bytes alone. -/
theorem insert_same (h : Quota z) (hget : z.files.get? id = some f) (hlimits : z'.limits = z.limits)
    (hfiles : z'.files = z.files.insert id f') (hstored : z'.stored = z.stored)
    (hsame : f'.stored = f.stored) : Quota z' := by
  refine h.insert hget hlimits hfiles ?_ ?_ ?_ ?_
  · rw [hstored, hsame, sub_self, add_zero]
  · rw [hstored]; exact h.stored_le
  · rw [hsame]; exact h.file_le id f hget
  · rw [hsame]; exact h.nonneg id f hget

/-- A new file takes none. -/
theorem insert_new (h : Quota z) (hget : z.files.get? id = none) (hlimits : z'.limits = z.limits)
    (hfiles : z'.files = z.files.insert id f') (hstored : z'.stored = z.stored)
    (hnew : f'.stored = 0) (hroom : z.files.keys.length < z.limits.dropFiles) : Quota z' where
  nonneg id' g hget' := by
    rw [hfiles, Dict.get?_insert] at hget'
    split_ifs at hget'
    · cases hget'; exact hnew.ge
    · exact h.nonneg id' g hget'
  stored := by
    rw [hstored, hfiles, Dict.sum_insert, Dict.erase_of_none hget, hnew, zero_add]
    exact h.stored
  stored_le := by rw [hstored, hlimits]; exact h.stored_le
  file_le id' g hget' := by
    rw [hfiles, Dict.get?_insert] at hget'
    rw [hlimits]
    split_ifs at hget'
    · cases hget'
      rw [hnew]
      exact z.limits.dropFileBytes_nonneg
    · exact h.file_le id' g hget'
  files_le := by
    rw [hfiles, hlimits, Dict.length_keys_insert, Dict.erase_of_none hget]
    exact hroom

/-- A removed file gives back what it took. -/
theorem removeLocked (h : Quota z) (hget : z.files.get? id = some f) :
    Quota (z.removeLocked id f) where
  nonneg id' g hget' := h.nonneg id' g (get?_of_erase hget')
  stored := by
    have hsum := h.stored
    rw [Dict.sum_entries hget] at hsum
    change z.stored - f.stored = _
    rw [hsum, add_sub_cancel_left]
    rfl
  stored_le := by
    have hpos := h.nonneg id f hget
    have hle := h.stored_le
    change z.stored - f.stored ≤ z.limits.dropBytes
    omega
  file_le id' g hget' := h.file_le id' g (get?_of_erase hget')
  files_le := by
    have hlength := h.files_le
    rw [Dict.length_keys hget] at hlength
    exact (Nat.le_succ _).trans hlength

end Quota

/-! ## Holders

A file counts who holds it, a session lists what it holds. The two agree, which is why no file that
is held expires. -/

/-- Who holds a file changes by the session that changed. -/
theorem holderCount_insert {d' : DropSession} (hget : z.sessions.get? conn = some d)
    (hsessions : z'.sessions = z.sessions.insert conn d') (id : ℕ) :
    z'.holderCount id + (if id ∈ d.held then 1 else 0) =
      z.holderCount id + if id ∈ d'.held then 1 else 0 := by
  rw [holderCount, holderCount, hsessions, Dict.countP_insert, Dict.countP_entries hget]
  simp only [decide_eq_true_eq]
  omega

/-- And by one that ended. -/
theorem holderCount_erase (hget : z.sessions.get? conn = some d)
    (hsessions : z'.sessions = z.sessions.erase conn) (id : ℕ) :
    z'.holderCount id + (if id ∈ d.held then 1 else 0) = z.holderCount id := by
  rw [holderCount, holderCount, hsessions, Dict.countP_entries hget]
  simp only [decide_eq_true_eq]

/-- The same sessions hold the same files, of which some may be gone. -/
structure SameHolds (z z' : DropZone) : Prop where
  files : ∀ id f', z'.files.get? id = some f' →
    ∃ f, z.files.get? id = some f ∧ f'.holders = f.holders ∧ f'.expires = f.expires
  count : ∀ id, z'.holderCount id = z.holderCount id
  held : ∀ conn d', z'.sessions.get? conn = some d' →
    d'.held = [] ∨ ∃ d, z.sessions.get? conn = some d ∧ d'.held = d.held
  ids : z.ids ≤ z'.ids

/-- Changes that alter no holders keep the count of them. -/
theorem SameHolds.holds (hsame : SameHolds z z') (h : Holds z) : Holds z' where
  holders id f' hget := by
    obtain ⟨f, hf, hholders, -⟩ := hsame.files id f' hget
    rw [hholders, hsame.count]
    exact h.holders id f hf
  expires id f' hget := by
    obtain ⟨f, hf, hholders, hexpires⟩ := hsame.files id f' hget
    rw [hholders, hexpires]
    exact h.expires id f hf
  nodup conn d' hget := by
    obtain hnil | ⟨d, hd, hheld⟩ := hsame.held conn d' hget
    · rw [hnil]; exact List.nodup_nil
    · rw [hheld]; exact h.nodup conn d hd
  made id f' hget := by
    obtain ⟨f, hf, -⟩ := hsame.files id f' hget
    exact (h.made id f hf).trans_le hsame.ids
  held_made conn d' hget id hmem := by
    obtain hnil | ⟨d, hd, hheld⟩ := hsame.held conn d' hget
    · rw [hnil] at hmem; cases hmem
    · rw [hheld] at hmem
      exact (h.held_made conn d hd id hmem).trans_le hsame.ids

/-- No file is there that was not, and what is left of one holds alike. -/
def SameFiles (z z' : DropZone) : Prop :=
  ∀ id f', z'.files.get? id = some f' →
    ∃ f, z.files.get? id = some f ∧ f'.holders = f.holders ∧ f'.expires = f.expires ∧
      f'.writing = f.writing

/-- The same files. -/
theorem SameFiles.of_eq (h : z'.files = z.files) : SameFiles z z' := fun _ f' hget =>
  ⟨f', h ▸ hget, rfl, rfl, rfl⟩

/-- A file changed in nothing but its bytes. -/
theorem SameFiles.of_insert (hget : z.files.get? id = some f) (h : z'.files = z.files.insert id f')
    (hholders : f'.holders = f.holders) (hexpires : f'.expires = f.expires)
    (hwriting : f'.writing = f.writing) : SameFiles z z' := fun id' g hget' => by
  rw [h, Dict.get?_insert] at hget'
  split_ifs at hget' with heq
  · cases hget'
    exact ⟨f, heq ▸ hget, hholders, hexpires, hwriting⟩
  · exact ⟨g, hget', rfl, rfl, rfl⟩

/-- A file less. -/
theorem SameFiles.of_erase (h : z'.files = z.files.erase id) : SameFiles z z' :=
  fun id' g hget' => by
  rw [h] at hget'
  exact ⟨g, get?_of_erase hget', rfl, rfl, rfl⟩

/-- The same sessions hold the same files. -/
theorem SameHolds.of_sessions (hfiles : SameFiles z z') (hsessions : z'.sessions = z.sessions)
    (hids : z.ids ≤ z'.ids) : SameHolds z z' where
  files id f' hget := by
    obtain ⟨f, hf, hholders, hexpires, -⟩ := hfiles id f' hget
    exact ⟨f, hf, hholders, hexpires⟩
  count id := by rw [holderCount, hsessions, holderCount]
  held conn d' hget := .inr ⟨d', hsessions ▸ hget, rfl⟩
  ids := hids

/-- A session that is at another task holds what it held. -/
theorem SameHolds.of_task {task : DropTask} (hget : z.sessions.get? conn = some d)
    (hfiles : ∀ id f', z'.files.get? id = some f' →
      ∃ f, z.files.get? id = some f ∧ f'.holders = f.holders ∧ f'.expires = f.expires)
    (hsessions : z'.sessions = z.sessions.insert conn { d with task }) (hids : z'.ids = z.ids) :
    SameHolds z z' where
  files := hfiles
  count id := by
    have hcount := holderCount_insert hget hsessions id
    exact Nat.add_right_cancel hcount
  held conn' d' hget' := by
    rw [hsessions, Dict.get?_insert] at hget'
    split_ifs at hget' with heq
    · cases hget'
      exact .inr ⟨d, heq ▸ hget, rfl⟩
    · exact .inr ⟨d', hget', rfl⟩
  ids := hids.ge

/-! ## Writers

A file is written by one session at most, whose task names it. -/

/-- The same sessions write the same files. -/
structure SameWriters (z z' : DropZone) : Prop where
  files : ∀ id f', z'.files.get? id = some f' →
    ∃ f, z.files.get? id = some f ∧ f'.writing = f.writing
  writer : ∀ conn id, z'.IsWriter conn id ↔ z.IsWriter conn id
  held : ∀ conn d', z'.sessions.get? conn = some d' → d'.task.writes = none ∨
    ∃ d, z.sessions.get? conn = some d ∧ d'.held = d.held ∧ d'.task.writes = d.task.writes

/-- Changes that alter no writers keep each file's one. -/
theorem SameWriters.writers (hsame : SameWriters z z') (h : Writers z) : Writers z' where
  writing id f' hget := by
    obtain ⟨f, hf, hwriting⟩ := hsame.files id f' hget
    rw [hwriting, h.writing id f hf]
    exact exists_congr fun conn => (hsame.writer conn id).symm
  unique id conn conn' hconn hconn' :=
    h.unique id conn conn' ((hsame.writer conn id).mp hconn) ((hsame.writer conn' id).mp hconn')
  held conn d' id hget hwrites := by
    obtain hnone | ⟨d, hd, hheld, htask⟩ := hsame.held conn d' hget
    · rw [hnone] at hwrites; cases hwrites
    · rw [hheld]
      exact h.held conn d id hd (htask ▸ hwrites)

/-- The same sessions write the same files. -/
theorem SameWriters.of_sessions (hfiles : SameFiles z z') (hsessions : z'.sessions = z.sessions) :
    SameWriters z z' where
  files id f' hget := by
    obtain ⟨f, hf, -, -, hwriting⟩ := hfiles id f' hget
    exact ⟨f, hf, hwriting⟩
  writer conn id := by rw [IsWriter, hsessions, IsWriter]
  held conn d' hget := .inr ⟨d', hsessions ▸ hget, rfl, rfl⟩

/-- Who writes a file changes by the session that changed. -/
theorem isWriter_insert {d' : DropSession} (hsessions : z'.sessions = z.sessions.insert conn d')
    (conn' id : ℕ) :
    z'.IsWriter conn' id ↔
    if conn = conn' then d'.task.writes = some id else z.IsWriter conn' id := by
  rw [IsWriter, hsessions, Dict.get?_insert]
  split_ifs
  · simp
  · rfl

/-- A session writes what its task says. -/
theorem isWriter_iff (hget : z.sessions.get? conn = some d) (id : ℕ) :
    z.IsWriter conn id ↔ d.task.writes = some id := by
  simp [IsWriter, hget]

/-- The next task of an upload, or of a session that is in none. -/
theorem SameWriters.of_task {d' : DropSession} (hget : z.sessions.get? conn = some d)
    (hfiles : ∀ id f', z'.files.get? id = some f' →
      ∃ f, z.files.get? id = some f ∧ f'.writing = f.writing)
    (hsessions : z'.sessions = z.sessions.insert conn d') (htask : d'.task.writes = d.task.writes)
    (hheld : d'.task.writes = none ∨ d'.held = d.held) : SameWriters z z' where
  files := hfiles
  writer conn' id := by
    rw [isWriter_insert hsessions]
    split_ifs with heq
    · rw [← heq, isWriter_iff hget, htask]
    · rfl
  held conn' d'' hget' := by
    rw [hsessions, Dict.get?_insert] at hget'
    split_ifs at hget' with heq
    · cases hget'
      exact hheld.imp_right fun hsame => ⟨d, heq ▸ hget, hsame, htask⟩
    · exact .inr ⟨d'', hget', rfl, rfl⟩

/-- A session begins to write a file no one is writing. -/
theorem Writers.begins {d' : DropSession} (h : Writers z) (hget : z.sessions.get? conn = some d)
    (hready : d.task.writes = none) (hno : ∀ conn', ¬ z.IsWriter conn' id)
    (hfiles : z'.files = z.files.insert id f') (hwriting : f'.writing = true)
    (hsessions : z'.sessions = z.sessions.insert conn d') (htask : d'.task.writes = some id)
    (hheld : id ∈ d'.held) : Writers z' where
  writing id' g hget' := by
    rw [hfiles, Dict.get?_insert] at hget'
    split_ifs at hget' with heq
    · cases hget'
      refine ⟨fun _ => ⟨conn, ?_⟩, fun _ => hwriting⟩
      rw [isWriter_insert hsessions, if_pos rfl, htask, heq]
    · rw [h.writing id' g hget']
      refine exists_congr fun conn' => ?_
      rw [isWriter_insert hsessions]
      split_ifs with hconn
      · subst hconn
        simp [isWriter_iff hget, hready, htask, heq]
      · rfl
  unique id' conn₁ conn₂ h₁ h₂ := by
    rw [isWriter_insert hsessions] at h₁ h₂
    split_ifs at h₁ h₂ with heq₁ heq₂ heq₂
    · exact heq₁.symm.trans heq₂
    · rw [htask] at h₁
      cases h₁
      exact absurd h₂ (hno conn₂)
    · rw [htask] at h₂
      cases h₂
      exact absurd h₁ (hno conn₁)
    · exact h.unique id' conn₁ conn₂ h₁ h₂
  held conn' d'' id' hget' hwrites := by
    rw [hsessions, Dict.get?_insert] at hget'
    split_ifs at hget'
    · cases hget'
      rw [htask] at hwrites
      cases hwrites
      exact hheld
    · exact h.held conn' d'' id' hget' hwrites

/-- Only the file that was written is let go of. -/
theorem get?_stopWriting {id' : ℕ} {g : DropFile} (h : (z.stopWriting id).files.get? id' = some g) :
    (id = id' ∧ ∃ f, z.files.get? id = some f ∧ g = { f with writing := false }) ∨
      (id ≠ id' ∧ z.files.get? id' = some g) := by
  unfold stopWriting at h
  split at h
  next hnone =>
    refine .inr ⟨fun heq => ?_, h⟩
    rw [← heq, hnone] at h
    cases h
  next f hf =>
    change (z.files.insert id _).get? id' = some g at h
    rw [Dict.get?_insert] at h
    split_ifs at h with heq
    · cases h
      exact .inl ⟨heq, f, hf, rfl⟩
    · exact .inr ⟨heq, h⟩

/-- `stopWriting`: the one writer of the file is gone. -/
theorem Writers.stops {task : DropTask} (h : Writers z) (hget : z.sessions.get? conn = some d)
    (hwrites : d.task.writes = some id) (hfiles : z'.files = (z.stopWriting id).files)
    (hsessions : z'.sessions = z.sessions.insert conn { d with task })
    (htask : task.writes = none) :
    Writers z' where
  writing id' g hget' := by
    have hconn : ∀ conn' id', z'.IsWriter conn' id' ↔ conn' ≠ conn ∧ z.IsWriter conn' id' := by
      intro conn' id'
      rw [isWriter_insert hsessions]
      split_ifs with heq
      · simp [htask, heq]
      · simp [Ne.symm heq]
    rw [hfiles] at hget'
    obtain ⟨rfl, f, -, rfl⟩ | ⟨hne, hg⟩ := get?_stopWriting hget'
    · refine ⟨Bool.false_ne_true.elim, ?_⟩
      rintro ⟨conn', hwriter⟩
      obtain ⟨hother, hwriter⟩ := (hconn conn' id).mp hwriter
      exact absurd (h.unique id conn' conn hwriter ((isWriter_iff hget id).mpr hwrites)) hother
    · rw [h.writing id' g hg]
      refine exists_congr fun conn' => ?_
      rw [hconn, iff_and_self]
      rintro hwriter rfl
      rw [isWriter_iff hget, hwrites] at hwriter
      exact hne (Option.some_injective _ hwriter)
  unique id' conn₁ conn₂ h₁ h₂ := by
    rw [isWriter_insert hsessions] at h₁ h₂
    split_ifs at h₁ h₂
    · rw [htask] at h₁; cases h₁
    · rw [htask] at h₁; cases h₁
    · rw [htask] at h₂; cases h₂
    · exact h.unique id' conn₁ conn₂ h₁ h₂
  held conn' d'' id' hget' hwrites' := by
    rw [hsessions, Dict.get?_insert] at hget'
    split_ifs at hget'
    · cases hget'
      rw [htask] at hwrites'
      cases hwrites'
    · exact h.held conn' d'' id' hget' hwrites'

/-! ## Reserved bytes

A chunk is counted before it is copied, and what did not come is given back. -/

/-- The files other sessions write are as they were. -/
theorem Reserved.of_session {d' : DropSession} (h : Reserved z)
    (hsessions : z'.sessions = z.sessions.insert conn d')
    (hfiles : ∀ conn' id f', conn ≠ conn' → z.IsWriter conn' id → z'.files.get? id = some f' →
      ∃ f, z.files.get? id = some f ∧ f'.stored = f.stored)
    (htask : ∀ id n f', d'.task = .copying id n → z'.files.get? id = some f' → n ≤ f'.stored) :
    Reserved z' := by
  intro conn' d'' id n f' hget hcopying hfile
  rw [hsessions, Dict.get?_insert] at hget
  split_ifs at hget with heq
  · cases hget
    exact htask id n f' hcopying hfile
  · have hwriter : z.IsWriter conn' id := ⟨d'', hget, by rw [hcopying]; rfl⟩
    obtain ⟨f, hf, hstored⟩ := hfiles conn' id f' heq hwriter hfile
    rw [hstored]
    exact h conn' d'' id n f hget hcopying hf

/-- The stored bytes of what files are left. -/
def SameStored (z z' : DropZone) : Prop :=
  ∀ id f', z'.files.get? id = some f' → ∃ f, z.files.get? id = some f ∧ f'.stored = f.stored

/-- The same files store the same. -/
theorem SameStored.of_eq (h : z'.files = z.files) : SameStored z z' := fun _ f' hget =>
  ⟨f', h ▸ hget, rfl⟩

/-- A file changed in nothing but its holders. -/
theorem SameStored.of_insert (f' : DropFile) (hget : z.files.get? id = some f)
    (h : z'.files = z.files.insert id f') (hstored : f'.stored = f.stored) :
    SameStored z z' := fun id' g hget' => by
  rw [h, Dict.get?_insert] at hget'
  split_ifs at hget' with heq
  · cases hget'
    exact ⟨f, heq ▸ hget, hstored⟩
  · exact ⟨g, hget', rfl⟩

/-- A file less. -/
theorem SameStored.of_erase (h : z'.files = z.files.erase id) : SameStored z z' := fun _ g hget' =>
  ⟨g, get?_of_erase (h ▸ hget'), rfl⟩

/-- Sessions that end take their reservations with them. -/
theorem Reserved.of_sessions (h : Reserved z) (hfiles : SameStored z z')
    (hsessions : ∀ conn d, z'.sessions.get? conn = some d → z.sessions.get? conn = some d) :
    Reserved z' := by
  intro conn d id n f' hget hcopying hfile
  obtain ⟨f, hf, hstored⟩ := hfiles id f' hfile
  rw [hstored]
  exact h conn d id n f (hsessions conn d hget) hcopying hf

/-! ## The operations

One lemma for each operation of the zone, all of them keeping the four books at once. -/

structure Sound (z : DropZone) : Prop where
  quota : Quota z
  holds : Holds z
  writers : Writers z
  reserved : Reserved z

/-- A step that leaves the sessions alone. -/
theorem Sound.of_files (h : Sound z) (hquota : Quota z') (hfiles : SameFiles z z')
    (hstored : SameStored z z') (hsessions : z'.sessions = z.sessions) (hids : z.ids ≤ z'.ids) :
    Sound z' where
  quota := hquota
  holds := (SameHolds.of_sessions hfiles hsessions hids).holds h.holds
  writers := (SameWriters.of_sessions hfiles hsessions).writers h.writers
  reserved := h.reserved.of_sessions hstored fun _ _ hget => hsessions ▸ hget

/-- A refusal is an answer and no more. -/
theorem Sound.refuse (h : Sound z) (conn : ℕ) (reason : DropReason) :
    Sound (z.refuse conn reason) :=
  h.of_files (h.quota.of_eq rfl rfl rfl) (.of_eq rfl) (.of_eq rfl) rfl le_rfl

/-- A file is removed with the room it took; its holders' count goes with it. -/
theorem Sound.removeLocked (h : Sound z) (hget : z.files.get? id = some f) :
    Sound (z.removeLocked id f) :=
  h.of_files (h.quota.removeLocked hget) (.of_erase rfl) (.of_erase rfl) rfl le_rfl

/-- The next task of a session that goes on writing what it wrote. -/
theorem Sound.of_task {task : DropTask} (h : Sound z) (hget : z.sessions.get? conn = some d)
    (hquota : Quota z') (hfiles : SameFiles z z')
    (hstored : ∀ id f', d.task.writes ≠ some id → z'.files.get? id = some f' →
      ∃ f, z.files.get? id = some f ∧ f'.stored = f.stored)
    (hsessions : z'.sessions = z.sessions.insert conn { d with task }) (hids : z'.ids = z.ids)
    (htask : task.writes = d.task.writes)
    (hcopying : ∀ id n f', task = .copying id n → z'.files.get? id = some f' → n ≤ f'.stored) :
    Sound z' where
  quota := hquota
  holds := by
    refine (SameHolds.of_task hget ?_ hsessions hids).holds h.holds
    intro id f' hf'
    obtain ⟨f, hf, hholders, hexpires, -⟩ := hfiles id f' hf'
    exact ⟨f, hf, hholders, hexpires⟩
  writers := by
    refine (SameWriters.of_task hget ?_ hsessions htask (.inr rfl)).writers h.writers
    intro id f' hf'
    obtain ⟨f, hf, -, -, hwriting⟩ := hfiles id f' hf'
    exact ⟨f, hf, hwriting⟩
  reserved := by
    refine h.reserved.of_session hsessions (fun conn' id f' hne hwriter hf' => ?_) hcopying
    refine hstored id f' (fun hwrites => hne ?_) hf'
    exact h.writers.unique id conn conn' ((isWriter_iff hget id).mpr hwrites) hwriter

/-- The next task, and no file is touched. -/
theorem Sound.goTo {task : DropTask} (h : Sound z) (hget : z.sessions.get? conn = some d)
    (htask : task.writes = d.task.writes) (hcopying : ∀ id n, task ≠ .copying id n) :
    Sound (z.goTo conn d task) :=
  h.of_task hget (h.quota.of_eq rfl rfl rfl) (.of_eq rfl) (fun _ f' _ hf' => ⟨f', hf', rfl⟩) rfl rfl
    htask fun id n _ heq => absurd heq (hcopying id n)

/-- Room is reserved when the limits leave it, else the upload ends. -/
theorem Sound.reserve (h : Sound z) (hget : z.sessions.get? conn = some d)
    (hwrites : d.task.writes = some id) (n : ℕ) (hasRoom : Bool) :
    Sound (z.reserve conn d id n hasRoom) := by
  have hrefuse : ∀ reason, Sound ((z.refuse conn reason).goTo conn d (.returning id false)) :=
    fun reason => (h.refuse conn reason).goTo hget hwrites.symm (by simp)
  unfold DropZone.reserve
  split
  · exact hrefuse _
  · split
    · exact hrefuse _
    next f hf =>
      split_ifs with hfile hzone
      · exact (h.refuse conn _).goTo hget hwrites.symm (by simp)
      · exact hrefuse _
      · have hpos := h.quota.nonneg id f hf
        refine h.of_task hget (h.quota.insert hf rfl rfl ?_ ?_ ?_ ?_)
          (.of_insert hf rfl rfl rfl rfl)
          (fun id' f' hne hf' => ?_) rfl rfl hwrites.symm ?_
        · change z.stored + n = z.stored + (f.stored + n - f.stored)
          omega
        · change z.stored + n ≤ z.limits.dropBytes
          omega
        · change f.stored + n ≤ z.limits.dropFileBytes
          omega
        · change 0 ≤ f.stored + n
          omega
        · change (z.files.insert id _).get? id' = some f' at hf'
          rw [Dict.get?_insert_of_ne _ fun heq : id = id' => hne (heq ▸ hwrites)] at hf'
          exact ⟨f', hf', rfl⟩
        · rintro id' m f' ⟨⟩ hf'
          change (z.files.insert id _).get? id = some f' at hf'
          rw [Dict.get?_insert_self] at hf'
          cases hf'
          change (n : ℤ) ≤ f.stored + n
          omega

/-- What is given back was reserved. -/
theorem Sound.unreserve (h : Sound z) (hget : z.sessions.get? conn = some d) {n : ℤ}
    (htask : d.task = .copying id n) {left : ℤ} (hleft : 0 ≤ left) (hle : left ≤ n) :
    Sound ((z.unreserve id left).goTo conn d (.returning id false)) := by
  have hwrites : d.task.writes = some id := by rw [htask]; rfl
  unfold DropZone.unreserve
  split
  · exact h.goTo hget hwrites.symm (by simp)
  next f hf =>
    have hreserved := h.reserved conn d id n f hget htask hf
    have hzone := h.quota.stored_le
    have hfile := h.quota.file_le id f hf
    refine h.of_task hget (h.quota.insert hf rfl rfl ?_ ?_ ?_ ?_) (.of_insert hf rfl rfl rfl rfl)
      (fun id' f' hne hf' => ?_) rfl rfl hwrites.symm (by simp)
    · change z.stored - left = z.stored + (f.stored - left - f.stored)
      omega
    · change z.stored - left ≤ z.limits.dropBytes
      omega
    · change f.stored - left ≤ z.limits.dropFileBytes
      omega
    · change 0 ≤ f.stored - left
      omega
    · change (z.files.insert id _).get? id' = some f' at hf'
      rw [Dict.get?_insert_of_ne _ fun heq : id = id' => hne (heq ▸ hwrites)] at hf'
      exact ⟨f', hf', rfl⟩

/-- A chunk that came short gives back what was reserved for the rest. -/
theorem Sound.copied (h : Sound z) (hget : z.sessions.get? conn = some d) {n : ℤ}
    (htask : d.task = .copying id n) (written : ℕ) : Sound (z.copied conn d id n written) := by
  unfold DropZone.copied
  split_ifs
  · exact h.unreserve hget htask (by omega) (by omega)
  · exact h.goTo hget (by rw [htask]; rfl) (by simp)

/-- An upload that grew too large is removed. -/
theorem Sound.removeOversized (h : Sound z) (hget : z.sessions.get? conn = some d)
    (hwrites : d.task.writes = some id) :
    Sound ((match z.files.get? id with
      | none => z
      | some f => z.removeLocked id f).goTo conn d (.returning id false)) := by
  split
  · exact h.goTo hget hwrites.symm (by simp)
  next f hf => exact (h.removeLocked hf).goTo hget hwrites.symm (by simp)

/-- A committed file has no writer. -/
theorem Sound.commit (h : Sound z) (hget : z.sessions.get? conn = some d)
    (hwrites : d.task.writes = some id) : Sound (z.commit conn d id) := by
  unfold DropZone.commit
  split
  · exact (h.refuse conn _).goTo hget hwrites.symm (by simp)
  next f hf =>
    refine h.of_task hget (h.quota.insert_same hf rfl rfl rfl rfl) (.of_insert hf rfl rfl rfl rfl)
      (fun id' f' _ hf' => ?_) rfl rfl hwrites.symm (by simp)
    exact SameStored.of_insert { f with complete := true } hf rfl rfl id' f' hf'

/-- Removing by name goes through the same. -/
theorem Sound.remove (h : Sound z) (conn id : ℕ) : Sound (z.remove conn id) := by
  unfold DropZone.remove
  split
  · exact h.refuse conn _
  next f hf =>
    split_ifs
    · exact h.refuse conn _
    · exact h.removeLocked hf

/-- Stopping a writer changes its file, and its session's task. -/
theorem sessions_stopWriting (z : DropZone) (conn : ℕ) (d : DropSession) (id : ℕ)
    (task : DropTask) :
    ((z.stopWriting id).goTo conn d task).sessions = z.sessions.insert conn { d with task } ∧
      ((z.stopWriting id).goTo conn d task).ids = z.ids := by
  unfold stopWriting
  split
  · exact ⟨rfl, rfl⟩
  · exact ⟨rfl, rfl⟩

/-- The file keeps its holders but for the writer's hold. -/
theorem Sound.stopWriting (h : Sound z) (hget : z.sessions.get? conn = some d)
    (hwrites : d.task.writes = some id) {task : DropTask} (htask : task.writes = none) :
    Sound ((z.stopWriting id).goTo conn d task) := by
  obtain ⟨hsessions, hids⟩ := sessions_stopWriting z conn d id task
  refine ⟨?_, ?_, h.writers.stops hget hwrites rfl hsessions htask, ?_⟩
  · unfold DropZone.stopWriting
    split
    · exact h.quota.of_eq rfl rfl rfl
    next f hf => exact h.quota.insert_same hf rfl rfl rfl rfl
  · refine (SameHolds.of_task hget (fun id' g hg => ?_) hsessions hids).holds h.holds
    obtain ⟨rfl, f, hf, rfl⟩ | ⟨-, hg⟩ := get?_stopWriting hg
    · exact ⟨f, hf, rfl, rfl⟩
    · exact ⟨g, hg, rfl, rfl⟩
  · refine h.reserved.of_session hsessions (fun _ id' g _ _ hg => ?_) ?_
    · obtain ⟨rfl, f, hf, rfl⟩ | ⟨-, hg⟩ := get?_stopWriting hg
      · exact ⟨f, hf, rfl⟩
      · exact ⟨g, hg, rfl⟩
    · rintro id' n g ⟨⟩
      cases htask

/-! ## Holding a file -/

/-- One holder more. -/
theorem Holds.holdLocked {d' : DropSession} (h : Holds z) (hget : z.sessions.get? conn = some d)
    (hnot : id ∉ d.held) (hcount : f.holders = z.holderCount id)
    (hfiles : z'.files = z.files.insert id f') (hholders : f'.holders = f.holders + 1)
    (hexpires : f'.expires = none) (hsessions : z'.sessions = z.sessions.insert conn d')
    (hheld : d'.held = id :: d.held) (hid : id < z'.ids) (hids : z.ids ≤ z'.ids) : Holds z' where
  holders id' g hget' := by
    have hcount' := holderCount_insert hget hsessions id'
    rw [hfiles, Dict.get?_insert] at hget'
    split_ifs at hget' with heq
    · subst heq
      cases hget'
      rw [if_neg hnot, hheld, if_pos List.mem_cons_self] at hcount'
      rw [hholders, hcount]
      omega
    · rw [h.holders id' g hget']
      have hmem : id' ∈ d'.held ↔ id' ∈ d.held := by
        rw [hheld, List.mem_cons, or_iff_right (Ne.symm heq)]
      simp only [hmem] at hcount'
      omega
  expires id' g hget' := by
    rw [hfiles, Dict.get?_insert] at hget'
    split_ifs at hget' with heq
    · cases hget'
      rw [hexpires, hholders, hcount]
      exact iff_of_true rfl (by omega)
    · exact h.expires id' g hget'
  nodup conn' d'' hget' := by
    rw [hsessions, Dict.get?_insert] at hget'
    split_ifs at hget'
    · cases hget'
      rw [hheld]
      exact List.nodup_cons.mpr ⟨hnot, h.nodup conn d hget⟩
    · exact h.nodup conn' d'' hget'
  made id' g hget' := by
    rw [hfiles, Dict.get?_insert] at hget'
    split_ifs at hget' with heq
    · exact heq ▸ hid
    · exact (h.made id' g hget').trans_le hids
  held_made conn' d'' hget' id' hmem := by
    rw [hsessions, Dict.get?_insert] at hget'
    split_ifs at hget'
    · cases hget'
      rw [hheld] at hmem
      obtain rfl | hmem := List.mem_cons.mp hmem
      · exact hid
      · exact (h.held_made conn d hget id' hmem).trans_le hids
    · exact (h.held_made conn' d'' hget' id' hmem).trans_le hids

/-- No one holds an id that is still to be made. -/
theorem Holds.holderCount_ids (h : Holds z) : z.holderCount z.ids = 0 := by
  rw [holderCount, List.countP_eq_zero]
  rintro ⟨conn, d⟩ hmem hheld
  have hlt := h.held_made conn d (Dict.mem_entries_iff.mp hmem) z.ids (by simpa using hheld)
  omega

/-- No one writes under an id that was not given out. -/
theorem Sound.not_isWriter_ids (h : Sound z) (conn : ℕ) : ¬ z.IsWriter conn z.ids := by
  rintro ⟨d, hget, hwrites⟩
  have hlt := h.holds.held_made conn d hget z.ids (h.writers.held conn d z.ids hget hwrites)
  omega

/-- A new file has its writer as its one holder. -/
theorem Sound.put (h : Sound z) (hget : z.sessions.get? conn = some d)
    (hready : d.task.writes = none) :
    Sound (z.put conn d) := by
  have hmade : Sound { z with ids := z.ids + 1 } :=
    h.of_files (h.quota.of_eq rfl rfl rfl) (.of_eq rfl) (.of_eq rfl) rfl (Nat.le_succ _)
  have hnot : z.ids ∉ d.held := fun hmem => by
    have := h.holds.held_made conn d hget z.ids hmem
    omega
  have hnone : z.files.get? z.ids = none := by
    cases hfile : z.files.get? z.ids with
    | none => rfl
    | some f =>
      have := h.holds.made z.ids f hfile
      omega
  unfold DropZone.put
  dsimp only
  split_ifs with hclosed hfull
  · exact hmade.refuse conn _
  · exact hmade.refuse conn _
  · rw [DropZone.holdLocked, if_neg hnot]
    have hfull : z.files.keys.length < z.limits.dropFiles := by
      change ¬ z.files.keys.length ≥ z.limits.dropFiles at hfull
      omega
    exact {
      quota := h.quota.insert_new hnone rfl rfl rfl rfl hfull
      holds := h.holds.holdLocked (f := { writing := true }) hget hnot
        (by rw [h.holds.holderCount_ids]; rfl) rfl rfl rfl rfl rfl (Nat.lt_succ_self _)
          (Nat.le_succ _)
      writers := h.writers.begins hget hready h.not_isWriter_ids rfl rfl rfl rfl List.mem_cons_self
      reserved := by
        refine h.reserved.of_session rfl (fun conn' id' g _ hwriter hg => ?_) (by simp)
        change (z.files.insert z.ids _).get? id' = some g at hg
        rw [Dict.get?_insert_of_ne] at hg
        · exact ⟨g, hg, rfl⟩
        · rintro rfl
          exact h.not_isWriter_ids conn' hwriter }

/-- A file there is, held. -/
theorem Sound.holdLocked (h : Sound z) (hget : z.sessions.get? conn = some d)
    (hf : z.files.get? id = some f) (f₁ : DropFile) (task : DropTask)
    (hstored : f₁.stored = f.stored) (hholders : f₁.holders = f.holders)
    (hexpires : f₁.expires = f.expires) (hcopying : ∀ id n, task ≠ .copying id n)
    (hwriters : Writers (z.holdLocked conn d id f₁ task)) :
    Sound (z.holdLocked conn d id f₁ task) := by
  unfold DropZone.holdLocked at hwriters ⊢
  split_ifs at hwriters ⊢ with hheld
  · refine ⟨h.quota.insert_same hf rfl rfl rfl hstored, ?_, hwriters, ?_⟩
    · refine SameHolds.holds (.of_task hget (fun id' g hg => ?_) rfl rfl) h.holds
      change (z.files.insert id f₁).get? id' = some g at hg
      rw [Dict.get?_insert] at hg
      split_ifs at hg with heq
      · cases hg
        exact ⟨f, heq ▸ hf, hholders, hexpires⟩
      · exact ⟨g, hg, rfl, rfl⟩
    · refine h.reserved.of_session rfl (fun _ id' g _ _ hg => ?_)
        fun id' n _ heq => absurd heq (hcopying id' n)
      exact SameStored.of_insert f₁ hf rfl hstored id' g hg
  · refine ⟨h.quota.insert_same hf rfl rfl rfl hstored, ?_, hwriters, ?_⟩
    · exact h.holds.holdLocked (f := f₁) hget hheld (hholders ▸ h.holds.holders id f hf)
        rfl rfl rfl rfl
        rfl (h.holds.made id f hf) le_rfl
    · refine h.reserved.of_session rfl (fun _ id' g _ _ hg => ?_)
        fun id' n _ heq => absurd heq (hcopying id' n)
      exact SameStored.of_insert { f₁ with holders := f₁.holders + 1, expires := none } hf rfl
        hstored id' g hg

/-- A file that is resumed is held and written by the session. -/
theorem Sound.resume (h : Sound z) (hget : z.sessions.get? conn = some d)
    (hready : d.task.writes = none) (id : ℕ) : Sound (z.resume conn d id) := by
  unfold DropZone.resume
  split
  · exact h.refuse conn _
  next f hf =>
    split_ifs with hwriting hcomplete
    · exact h.refuse conn _
    · exact h.refuse conn _
    · refine h.holdLocked hget hf { f with writing := true } (.reopening id)
        rfl rfl rfl (by simp) ?_
      have hno : ∀ conn', ¬ z.IsWriter conn' id := fun conn' hwriter =>
        hwriting ((h.writers.writing id f hf).mpr ⟨conn', hwriter⟩)
      unfold DropZone.holdLocked
      split_ifs with hheld
      · exact h.writers.begins hget hready hno rfl rfl rfl rfl hheld
      · exact h.writers.begins hget hready hno rfl rfl rfl rfl List.mem_cons_self

/-- A file that is read is held while it is. -/
theorem Sound.get (h : Sound z) (hget : z.sessions.get? conn = some d)
    (hready : d.task.writes = none) (id : ℕ) (offset : ℤ) : Sound (z.get conn d id offset) := by
  unfold DropZone.get
  split
  · exact h.refuse conn _
  next f hf =>
    split
    · exact h.refuse conn _
    split
    · exact h.refuse conn _
    · refine h.holdLocked hget hf f .ready rfl rfl rfl (by simp) ?_
      have hsame : ∀ {f' : DropFile}, f'.writing = f.writing → ∀ id' g,
          (z.files.insert id f').get? id' = some g →
          ∃ f, z.files.get? id' = some f ∧ g.writing = f.writing := by
        intro f' hwriting id' g hg
        rw [Dict.get?_insert] at hg
        split_ifs at hg with heq
        · cases hg
          exact ⟨f, heq ▸ hf, hwriting⟩
        · exact ⟨g, hg, rfl⟩
      unfold DropZone.holdLocked
      split_ifs
      · exact SameWriters.writers (.of_task hget (hsame rfl) rfl hready.symm (.inl rfl)) h.writers
      · exact SameWriters.writers (.of_task hget (hsame rfl) rfl hready.symm (.inl rfl)) h.writers

/-! ## The end of a session -/

/-- A session is gone, and has these files still to let go of. -/
structure Leaving (z : DropZone) (ids : List ℕ) : Prop where
  quota : Quota z
  writers : Writers z
  reserved : Reserved z
  holders : ∀ id f, z.files.get? id = some f →
    f.holders = z.holderCount id + if id ∈ ids then 1 else 0
  expires : ∀ id f, z.files.get? id = some f → (f.expires = none ↔ 0 < f.holders)
  nodup : ∀ conn d, z.sessions.get? conn = some d → d.held.Nodup
  made : ∀ id f, z.files.get? id = some f → id < z.ids
  held_made : ∀ conn d, z.sessions.get? conn = some d → ∀ id ∈ d.held, id < z.ids

/-- When all that a session held is let go, the books agree again. -/
theorem Leaving.sound (h : Leaving z []) : Sound z where
  quota := h.quota
  holds :=
    ⟨fun id f hget => by simpa using h.holders id f hget, h.expires, h.nodup, h.made, h.held_made⟩
  writers := h.writers
  reserved := h.reserved

/-- Letting go of a file changes its holders and its clock. -/
theorem get?_letGo {time id' : ℕ} {g : DropFile} (hf : z.files.get? id = some f)
    (h : (letGo time z id).files.get? id' = some g) :
    (id = id' ∧ g = release time f) ∨ (id ≠ id' ∧ z.files.get? id' = some g) := by
  rw [letGo, hf] at h
  change (z.files.insert id _).get? id' = some g at h
  rw [Dict.get?_insert] at h
  split at h
  next heq => exact .inl ⟨heq, (Option.some_injective _ h).symm⟩
  next hne => exact .inr ⟨hne, h⟩

/-- A file that is gone needs no letting go. -/
theorem Leaving.letGo_of_none {ids : List ℕ} (h : Leaving z (id :: ids))
    (hf : z.files.get? id = none) :
    Leaving z ids := by
  refine { h with holders := fun id' g hg => ?_ }
  have hne : id' ≠ id := fun heq => by rw [heq, hf] at hg; cases hg
  rw [h.holders id' g hg]
  simp [hne]

/-- A file that is there has one holder less. -/
theorem Leaving.letGo_of_some {ids : List ℕ} (h : Leaving z (id :: ids)) (hnot : id ∉ ids)
    (hf : z.files.get? id = some f) (time : ℕ) : Leaving (letGo time z id) ids := by
  have hletGo : DropZone.letGo time z id =
      { z with files := z.files.insert id (release time f) } := by
    rw [DropZone.letGo, hf]
  have hsame : ∀ id' g, (DropZone.letGo time z id).files.get? id' = some g →
      ∃ f, z.files.get? id' = some f ∧ g.writing = f.writing ∧ g.stored = f.stored := by
    intro id' g hg
    obtain ⟨rfl, rfl⟩ | ⟨-, hg⟩ := get?_letGo hf hg
    · exact ⟨f, hf, rfl, rfl⟩
    · exact ⟨g, hg, rfl, rfl⟩
  have hsessions : (DropZone.letGo time z id).sessions = z.sessions := by rw [hletGo]
  have hids : (DropZone.letGo time z id).ids = z.ids := by rw [hletGo]
  have hcount : ∀ id', (DropZone.letGo time z id).holderCount id' = z.holderCount id' :=
    fun id' => by
    rw [holderCount, hsessions, holderCount]
  have hholders : f.holders = z.holderCount id + 1 := by
    rw [h.holders id f hf, if_pos List.mem_cons_self]
  exact {
    quota := by
      rw [hletGo]
      exact h.quota.insert_same hf rfl rfl rfl rfl
    writers := by
      refine SameWriters.writers ⟨fun id' g hg => ?_, fun conn' id' => ?_, fun conn' d' hd' => ?_⟩
        h.writers
      · obtain ⟨f', hf', hwriting, -⟩ := hsame id' g hg
        exact ⟨f', hf', hwriting⟩
      · rw [IsWriter, hsessions, IsWriter]
      · exact .inr ⟨d', hsessions ▸ hd', rfl, rfl⟩
    reserved := by
      refine h.reserved.of_sessions (fun id' g hg => ?_) fun _ _ hd => hsessions ▸ hd
      obtain ⟨f', hf', -, hstored⟩ := hsame id' g hg
      exact ⟨f', hf', hstored⟩
    holders := fun id' g hg => by
      rw [hcount]
      obtain ⟨rfl, rfl⟩ | ⟨hne, hg⟩ := get?_letGo hf hg
      · rw [if_neg hnot]
        change f.holders - 1 = _
        omega
      · rw [h.holders id' g hg]
        simp [Ne.symm hne]
    expires := fun id' g hg => by
      obtain ⟨rfl, rfl⟩ | ⟨-, hg⟩ := get?_letGo hf hg
      · have hclock := h.expires id f hf
        by_cases hlast : f.holders - 1 = 0
        · simp [release, hlast]
        · simp only [release, hlast, if_false, hclock]
          omega
      · exact h.expires id' g hg
    nodup := hsessions ▸ h.nodup
    made := fun id' g hg => by
      obtain ⟨f', hf', -⟩ := hsame id' g hg
      exact hids ▸ h.made id' f' hf'
    held_made := by
      rw [hsessions, hids]
      exact h.held_made }

/-- **Letting go one by one** leaves the books in agreement. -/
theorem Leaving.foldl (time : ℕ) : ∀ (ids : List ℕ) {z : DropZone}, ids.Nodup → Leaving z ids →
    Sound (ids.foldl (DropZone.letGo time) z)
  | [], _, _, h => h.sound
  | id :: ids, z, hnodup, h => by
    obtain ⟨hnot, hnodup⟩ := List.nodup_cons.mp hnodup
    refine Leaving.foldl time ids hnodup ?_
    cases hf : z.files.get? id with
    | none =>
      rw [DropZone.letGo, hf]
      exact h.letGo_of_none hf
    | some f => exact h.letGo_of_some hnot hf time

/-- A session that ends lets go of all it held. -/
theorem Sound.endSession (h : Sound z) (hget : z.sessions.get? conn = some d)
    (hready : d.task.writes = none) (now : ℕ) : Sound (z.endSession conn d now) := by
  refine Leaving.foldl _ d.held (h.holds.nodup conn d hget) ?_
  have hsessions : ∀ conn' d', (z.sessions.erase conn).get? conn' = some d' →
      z.sessions.get? conn' = some d' := fun _ _ => get?_of_erase
  have hwriters : SameWriters z { z with sessions := z.sessions.erase conn } := by
    refine ⟨fun _ g hg => ⟨g, hg, rfl⟩, fun conn' id => ?_, fun conn' d' hd' => ?_⟩
    · rw [IsWriter, Dict.get?_erase]
      split_ifs with heq
      · subst heq
        simp [isWriter_iff hget, hready]
      · rfl
    · exact .inr ⟨d', hsessions conn' d' hd', rfl, rfl⟩
  exact {
    quota := h.quota.of_eq rfl rfl rfl
    writers := hwriters.writers h.writers
    reserved := h.reserved.of_sessions (.of_eq rfl) hsessions
    holders := fun id f hf => by
      have hcount : holderCount { z with sessions := z.sessions.erase conn } id + _ = _ :=
        holderCount_erase hget rfl id
      have hholders := h.holds.holders id f hf
      split_ifs at hcount ⊢
      · omega
      · omega
    expires := h.holds.expires
    nodup := fun conn' d' hd' => h.holds.nodup conn' d' (hsessions conn' d' hd')
    made := h.holds.made
    held_made := fun conn' d' hd' => h.holds.held_made conn' d' (hsessions conn' d' hd') }

/-! ## The zone -/

/-- A new session holds nothing. -/
theorem Sound.admitSession (h : Sound z) (conn : ℕ) : Sound (z.admitSession conn) := by
  unfold DropZone.admitSession
  split_ifs with hsome hroom
  · exact h
  · have hnone : z.sessions.get? conn = none := by simpa using hsome
    have hget : ∀ conn' d', (z.setSession conn {}).sessions.get? conn' = some d' →
        d' = {} ∨ z.sessions.get? conn' = some d' := by
      intro conn' d' hd'
      change (z.sessions.insert conn {}).get? conn' = some d' at hd'
      rw [Dict.get?_insert] at hd'
      split_ifs at hd'
      · exact .inl (Option.some_injective _ hd').symm
      · exact .inr hd'
    refine ⟨h.quota.of_eq rfl rfl rfl, SameHolds.holds ?_ h.holds,
      SameWriters.writers ?_ h.writers, ?_⟩
    · refine ⟨fun _ g hg => ⟨g, hg, rfl, rfl⟩, fun id => ?_, fun conn' d' hd' => ?_, le_rfl⟩
      · rw [holderCount, setSession, Dict.countP_insert, Dict.erase_of_none hnone]
        rfl
      · obtain rfl | hd' := hget conn' d' hd'
        · exact .inl rfl
        · exact .inr ⟨d', hd', rfl⟩
    · refine ⟨fun _ g hg => ⟨g, hg, rfl⟩, fun conn' id => ?_, fun conn' d' hd' => ?_⟩
      · rw [isWriter_insert rfl]
        split_ifs with heq
        · subst heq
          simp [IsWriter, hnone, DropTask.writes]
        · rfl
      · obtain rfl | hd' := hget conn' d' hd'
        · exact .inl rfl
        · exact .inr ⟨d', hd', rfl, rfl⟩
    · refine h.reserved.of_session rfl (fun _ _ g _ _ hg => ⟨g, hg, rfl⟩) (by simp)
  · exact h.refuse conn _

/-- What the sweeper's loop has come to. -/
theorem Sound.foldl_expire (now : ℕ) : ∀ (es : List (ℕ × DropFile)) {z : DropZone}, Sound z →
    (es.map Prod.fst).Nodup → (∀ e ∈ es, z.files.get? e.1 = some e.2) →
    Sound (es.foldl (fun z e => if DropZone.expires now e.2 then z.removeLocked e.1 e.2 else z) z)
  | [], _, h, _, _ => h
  | (id, f) :: es, z, h, hnodup, hmem => by
    obtain ⟨hnot, hnodup⟩ := List.nodup_cons.mp hnodup
    have hf : z.files.get? id = some f := hmem (id, f) List.mem_cons_self
    rw [List.foldl_cons]
    split_ifs
    · refine Sound.foldl_expire now es (h.removeLocked hf) hnodup fun e he => ?_
      change (z.files.erase id).get? e.1 = some e.2
      rw [Dict.get?_erase, if_neg]
      · exact hmem e (List.mem_cons_of_mem _ he)
      · rintro rfl
        exact hnot (List.mem_map.mpr ⟨e, he, rfl⟩)
    · exact Sound.foldl_expire now es h hnodup fun e he => hmem e (List.mem_cons_of_mem _ he)

/-- What expires has no holder. -/
theorem Sound.expire (h : Sound z) (now : ℕ) : Sound (z.expire now) :=
  h.foldl_expire now z.files.entries z.files.keys_nodup fun _ he => Dict.mem_entries_iff.mp he

/-- A closed zone has neither files nor sessions. -/
theorem Sound.close (h : Sound z) : Sound z.close := by
  unfold DropZone.close
  split_ifs
  · exact h
  · refine h.of_files
      ⟨by rintro id f ⟨⟩, rfl, z.limits.dropBytes_pos.le, by rintro id f ⟨⟩, Nat.zero_le _⟩
      (by rintro id f ⟨⟩) (by rintro id f ⟨⟩) rfl le_rfl

/-- Any action of a session, by its task. -/
theorem Sound.act (h : Sound z) (hget : z.sessions.get? conn = some d) (action : Action) :
    Sound (z.act conn d action d.task) := by
  cases htask : d.task with
  | ready =>
    have hready : d.task.writes = none := by rw [htask]; rfl
    cases action with
    | put valid hasRoom created =>
      rw [DropZone.act]
      split_ifs
      · exact h.put hget hready
      · exact h.refuse conn _
      · exact h.refuse conn _
    | resume id => exact h.resume hget hready id
    | get id offset => exact h.get hget hready id offset
    | remove id => exact h.remove conn id
    | endSession now => exact h.endSession hget hready now
    | _ => exact h
  | reopening id =>
    have hwrites : d.task.writes = some id := by rw [htask]; rfl
    cases action with
    | reopened ok =>
      cases ok with
      | true => exact h.goTo hget hwrites.symm (by simp)
      | false => exact (h.refuse conn _).goTo hget hwrites.symm (by simp)
    | _ => exact h
  | uploading id =>
    have hwrites : d.task.writes = some id := by rw [htask]; rfl
    cases action with
    | reserve n hasRoom => exact h.reserve hget hwrites n hasRoom
    | commit => exact h.commit hget hwrites
    | abandon => exact h.goTo hget hwrites.symm (by simp)
    | _ => exact h
  | copying id n =>
    cases action with
    | copied written => exact h.copied hget htask written
    | _ => exact h
  | oversized id =>
    have hwrites : d.task.writes = some id := by rw [htask]; rfl
    cases action with
    | removeOversized => exact h.removeOversized hget hwrites
    | _ => exact h
  | returning id goesOn =>
    have hwrites : d.task.writes = some id := by rw [htask]; rfl
    cases action with
    | stopWriting =>
      refine h.stopWriting hget hwrites ?_
      split_ifs
      · rfl
      · rfl
    | _ => exact h
  | closing =>
    cases action with
    | endSession now => exact h.endSession hget (by rw [htask]; rfl) now
    | _ => exact h

/-- **Any event of the zone.** -/
theorem Sound.step (h : Sound z) (e : Event) : Sound (z.step e) := by
  cases e with
  | admitSession conn => exact h.admitSession conn
  | act conn action =>
    rw [DropZone.step]
    split
    · exact h
    next d hget => exact h.act hget action
  | expire now => exact h.expire now
  | close => exact h.close

/-- A new zone has empty books. -/
theorem Sound.init (limits : DropLimits) : Sound { limits } where
  quota := ⟨by rintro id f ⟨⟩, rfl, limits.dropBytes_pos.le, by rintro id f ⟨⟩, Nat.zero_le _⟩
  holds := ⟨by rintro id f ⟨⟩, by rintro id f ⟨⟩, by rintro conn d ⟨⟩, by rintro id f ⟨⟩,
    by rintro conn d ⟨⟩⟩
  writers := ⟨by rintro id f ⟨⟩, by rintro id conn conn' ⟨d, ⟨⟩, -⟩, by rintro conn d id ⟨⟩⟩
  reserved := by rintro conn d id n f ⟨⟩

/-! ## What the sweeper leaves -/

/-- The sweeper takes files that no connection holds. -/
theorem get?_foldl_expire (now : ℕ) (hget : z.files.get? id = some f) (hheld : f.holders ≠ 0) :
    ∀ (es : List (ℕ × DropFile)) {z : DropZone}, z.files.get? id = some f →
      (∀ e ∈ es, e.1 = id → e.2 = f) →
      (es.foldl (fun z e => if DropZone.expires now e.2 then z.removeLocked e.1 e.2 else z)
        z).files.get? id = some f
  | [], _, hz, _ => hz
  | (id', f') :: es, z, hz, hmem => by
    rw [List.foldl_cons]
    refine get?_foldl_expire now hget hheld es ?_ fun e he => hmem e (List.mem_cons_of_mem _ he)
    split_ifs with hexpires
    · change (z.files.erase id').get? id = some f
      rw [Dict.get?_erase, if_neg]
      · exact hz
      · intro heq
        have hsame : f' = f := hmem (id', f') List.mem_cons_self heq
        rw [hsame, DropZone.expires, decide_eq_true_eq] at hexpires
        exact hheld hexpires.1
    · exact hz

/-- A file that is held does not expire. -/
theorem get?_expire (now : ℕ) (hget : z.files.get? id = some f) (hheld : f.holders ≠ 0) :
    (z.expire now).files.get? id = some f := by
  refine get?_foldl_expire now hget hheld z.files.entries hget ?_
  rintro ⟨id', f'⟩ he rfl
  exact Option.some_injective _ ((Dict.mem_entries_iff.mp he).symm.trans hget)

/-- What is promised of the zone: its books. -/
structure Accounted (z : DropZone) : Prop where
  stored : z.stored = (z.files.entries.map fun e => e.2.stored).sum
  stored_le : z.stored ≤ z.limits.dropBytes
  file_le : ∀ id f, z.files.get? id = some f → f.stored ≤ z.limits.dropFileBytes
  files_le : z.files.keys.length ≤ z.limits.dropFiles
  holders : ∀ id f, z.files.get? id = some f → f.holders = z.holderCount id
  expires : ∀ id f, z.files.get? id = some f → (f.expires = none ↔ 0 < f.holders)
  writer : ∀ id conn conn', z.IsWriter conn id → z.IsWriter conn' id → conn = conn'
  writing : ∀ id f, z.files.get? id = some f → (f.writing = true ↔ ∃ conn, z.IsWriter conn id)
  writer_holds : ∀ conn d id, z.sessions.get? conn = some d → d.task.writes = some id → id ∈ d.held
  sweeps : ∀ now id f, z.files.get? id = some f → 0 < z.holderCount id ∨ f.writing = true →
    (z.expire now).files.get? id = some f

/-- A file that is held or written counts a holder. -/
theorem Sound.holders_pos (h : Sound z) (hget : z.files.get? id = some f)
    (hused : 0 < z.holderCount id ∨ f.writing = true) : 0 < f.holders := by
  rw [h.holds.holders id f hget]
  obtain hpos | hwriting := hused
  · exact Int.natCast_pos.mpr hpos
  · obtain ⟨conn, d, hd, hwrites⟩ := (h.writers.writing id f hget).mp hwriting
    have hheld := h.writers.held conn d id hd hwrites
    refine Int.natCast_pos.mpr
      (List.countP_pos_iff.mpr ⟨(conn, d), Dict.mem_entries_iff.mpr hd, ?_⟩)
    simpa using hheld

/-- What is promised of the books. -/
theorem Sound.accounted (h : Sound z) : Accounted z where
  stored := h.quota.stored
  stored_le := h.quota.stored_le
  file_le := h.quota.file_le
  files_le := h.quota.files_le
  holders := h.holds.holders
  expires := h.holds.expires
  writer := h.writers.unique
  writing := h.writers.writing
  writer_holds := h.writers.held
  sweeps now _ _ hget hused := get?_expire now hget (h.holders_pos hget hused).ne'

/-- **The drop zone's books balance**, in every state that any interleaving of sessions, cuts, disk
errors, the sweeper and `close` reaches. -/
theorem run_balances (limits : DropLimits) (es : List Event) :
    Accounted (Run.after step { limits } es) :=
  Sound.accounted (Run.invariant (I := Sound) (fun _ e h => h.step e) es (Sound.init limits))

end DropZone
