import IGhostVT.Relay.DropAccounting

/-!
# Relay/DropWrites — which events write a file

Of all that happens in the zone, five things bear on a blob: an upload begins or resumes, its blob
is opened, a chunk is reserved, a chunk has been copied, and the file is committed.  Each is one
session moving on with one file (`Moves`); everything else is `Quiet`.
-/

namespace Relay

/-- The file this session has bytes of still to write. -/
def DropTask.blob : DropTask → Option ℕ
  | .reopening id => some id
  | .uploading id => some id
  | .copying id _ => some id
  | _ => none

/-- A task at a blob writes that blob. -/
theorem DropTask.writes_of_blob {task : DropTask} {id : ℕ} (h : task.blob = some id) :
    task.writes = some id := by
  cases task <;> first | exact h | cases h

end Relay

open Relay

namespace DropZone

variable {z z' z'' : DropZone} {id conn : ℕ} {f f' : DropFile} {d d' : DropSession}

/-- What is stored of the files that are left is as it was. -/
def SameBytes (z z' : DropZone) : Prop :=
  ∀ id f', z'.files.get? id = some f' →
    ∃ f, z.files.get? id = some f ∧ f'.stored = f.stored ∧ f'.complete = f.complete

/-- The same files hold the same bytes. -/
theorem SameBytes.of_eq (h : z'.files = z.files) : SameBytes z z' := fun _ f' hget =>
  ⟨f', h ▸ hget, rfl, rfl⟩

/-- A file that changes neither its length nor whether it is whole. -/
theorem SameBytes.of_insert (hget : z.files.get? id = some f) (h : z'.files = z.files.insert id f')
    (hstored : f'.stored = f.stored) (hcomplete : f'.complete = f.complete) : SameBytes z z' :=
  fun id' g hget' => by
    rw [h, Dict.get?_insert] at hget'
    split_ifs at hget' with heq
    · cases hget'
      exact ⟨f, heq ▸ hget, hstored, hcomplete⟩
    · exact ⟨g, hget', rfl, rfl⟩

/-- What is removed has no bytes to differ. -/
theorem SameBytes.of_erase (h : z'.files = z.files.erase id) : SameBytes z z' :=
  fun id' g hget' => by
  rw [h] at hget'
  exact ⟨g, get?_of_erase hget', rfl, rfl⟩

/-- No blob is written, and no session begins to write one. -/
structure Quiet (z z' : DropZone) : Prop where
  ids : z.ids ≤ z'.ids
  files : SameBytes z z'
  begun : ∀ conn d', z'.sessions.get? conn = some d' → d'.task.blob ≠ none →
    ∃ d, z.sessions.get? conn = some d ∧ d.task = d'.task
  copying : ∀ conn d id n, z.sessions.get? conn = some d → d.task = .copying id n →
    ∃ d', z'.sessions.get? conn = some d' ∧ d'.task = .copying id n

/-- One session moves on with one file, which is left as `left` says. -/
structure Moves (z z' : DropZone) (conn id : ℕ) (task : DropTask) (left : DropFile → Prop) :
    Prop where
  ids : z.ids ≤ z'.ids
  file : ∀ f', z'.files.get? id = some f' → left f'
  files : ∀ id' f', id' ≠ id → z'.files.get? id' = some f' →
    ∃ f, z.files.get? id' = some f ∧ f'.stored = f.stored ∧ f'.complete = f.complete
  session : ∃ d', z'.sessions.get? conn = some d' ∧ d'.task = task
  sessions : ∀ conn', conn' ≠ conn → z'.sessions.get? conn' = z.sessions.get? conn'

/-! ## Quiet steps

Most of what a zone does moves no blob: refusals, listings, locks, expiry, sessions that come and
go. `Quiet` is what they have in common, and there is one lemma for each. -/

namespace Quiet

/-- A change of the files alone starts no task. -/
theorem of_sessions (hfiles : SameBytes z z') (hsessions : z'.sessions = z.sessions)
    (hids : z.ids ≤ z'.ids) : Quiet z z' where
  ids := hids
  files := hfiles
  begun _ d' hget _ := ⟨d', hsessions ▸ hget, rfl⟩
  copying _ d _ _ hget htask := ⟨d, hsessions ▸ hget, htask⟩

theorem refl (z : DropZone) : Quiet z z := of_sessions (.of_eq rfl) rfl le_rfl

/-- One quiet step after another. -/
theorem trans (h : Quiet z z') (h' : Quiet z' z'') : Quiet z z'' where
  ids := h.ids.trans h'.ids
  files id f'' hget := by
    obtain ⟨f', hf', hstored, hcomplete⟩ := h'.files id f'' hget
    obtain ⟨f, hf, hstored', hcomplete'⟩ := h.files id f' hf'
    exact ⟨f, hf, hstored.trans hstored', hcomplete.trans hcomplete'⟩
  begun conn d'' hget hblob := by
    obtain ⟨d', hd', htask⟩ := h'.begun conn d'' hget hblob
    obtain ⟨d, hd, htask'⟩ := h.begun conn d' hd' (htask ▸ hblob)
    exact ⟨d, hd, htask'.trans htask⟩
  copying conn d id n hget htask := by
    obtain ⟨d', hd', htask'⟩ := h.copying conn d id n hget htask
    exact h'.copying conn d' id n hd' htask'

/-- A session that copies nothing goes on to what writes nothing. -/
theorem of_task (hget : z.sessions.get? conn = some d) (hfiles : SameBytes z z')
    (hsessions : z'.sessions = z.sessions.insert conn d') (hids : z.ids ≤ z'.ids)
    (hcopying : ∀ id n, d.task ≠ .copying id n) (hblob : d'.task.blob = none) : Quiet z z' where
  ids := hids
  files := hfiles
  begun conn' e' hget' hne := by
    rw [hsessions, Dict.get?_insert] at hget'
    split_ifs at hget'
    · cases hget'
      exact absurd hblob hne
    · exact ⟨e', hget', rfl⟩
  copying conn' e id n hget' htask := by
    have hother : conn ≠ conn' := by
      rintro rfl
      cases hget.symm.trans hget'
      exact hcopying id n htask
    exact ⟨e, by rw [hsessions, Dict.get?_insert_of_ne _ hother]; exact hget', htask⟩

/-- A refusal is an answer and no more. -/
theorem refuse (z : DropZone) (conn : ℕ) (reason : DropReason) : Quiet z (z.refuse conn reason) :=
  of_sessions (.of_eq rfl) rfl le_rfl

/-- A file that is removed was no blob in writing. -/
theorem removeLocked (z : DropZone) (id : ℕ) (f : DropFile) : Quiet z (z.removeLocked id f) :=
  of_sessions (.of_erase rfl) rfl le_rfl

/-- The next task of a session that copies nothing, and no file is touched. -/
theorem goTo {task : DropTask} (hget : z.sessions.get? conn = some d)
    (hcopying : ∀ id n, d.task ≠ .copying id n) (hblob : task.blob = none) :
    Quiet z (z.goTo conn d task) :=
  of_task hget (.of_eq rfl) rfl le_rfl hcopying hblob

/-- A session that is refused goes back to be ready. -/
theorem refuse_goTo {task : DropTask} (hget : z.sessions.get? conn = some d)
    (hcopying : ∀ id n, d.task ≠ .copying id n) (hblob : task.blob = none) (reason : DropReason) :
    Quiet z ((z.refuse conn reason).goTo conn d task) :=
  of_task hget (.of_eq rfl) rfl le_rfl hcopying hblob

theorem holdLocked {task : DropTask} (hget : z.sessions.get? conn = some d)
    (hcopying : ∀ id n, d.task ≠ .copying id n) (hblob : task.blob = none)
    (hfile : z.files.get? id = some f) : Quiet z (z.holdLocked conn d id f task) := by
  unfold DropZone.holdLocked
  split_ifs
  · exact of_task hget (.of_insert hfile rfl rfl rfl) rfl le_rfl hcopying hblob
  · exact of_task hget (.of_insert hfile rfl rfl rfl) rfl le_rfl hcopying hblob

/-- Removing a file by name is one of those. -/
theorem remove (z : DropZone) (conn id : ℕ) : Quiet z (z.remove conn id) := by
  unfold DropZone.remove
  split
  · exact refuse z conn _
  · split_ifs
    · exact refuse z conn _
    · exact removeLocked z id _

/-- A writer that is stopped is at its blob no longer. -/
theorem stopWriting (z : DropZone) (id : ℕ) : Quiet z (z.stopWriting id) := by
  unfold DropZone.stopWriting
  split
  · exact refl z
  next f hfile => exact of_sessions (.of_insert hfile rfl rfl rfl) rfl le_rfl

theorem sessions_stopWriting (z : DropZone) (id : ℕ) :
    (z.stopWriting id).sessions = z.sessions := by
  unfold DropZone.stopWriting
  split <;> rfl

/-- What a session held is let go of with the time noted. -/
theorem letGo (time : ℕ) (z : DropZone) (id : ℕ) : Quiet z (letGo time z id) := by
  unfold DropZone.letGo
  split
  · exact refl z
  next f hfile => exact of_sessions (.of_insert hfile rfl rfl rfl) rfl le_rfl

/-- Any number of quiet steps are quiet. -/
theorem foldl {α : Type} {g : DropZone → α → DropZone} (hg : ∀ z a, Quiet z (g z a)) :
    ∀ (as : List α) (z : DropZone), Quiet z (as.foldl g z)
  | [], z => refl z
  | a :: as, z => (hg z a).trans (foldl hg as (g z a))

/-- A session ends in the middle of no chunk. -/
theorem endSession (hget : z.sessions.get? conn = some d)
    (hcopying : ∀ id n, d.task ≠ .copying id n) (now : ℕ) : Quiet z (z.endSession conn d now) := by
  refine @Quiet.trans z { z with sessions := z.sessions.erase conn } _ ?_ (foldl (letGo _) d.held _)
  refine ⟨le_rfl, .of_eq rfl, fun conn' d' hget' _ => ⟨d', get?_of_erase hget', rfl⟩,
    fun conn' e id n hget' htask => ⟨e, ?_, htask⟩⟩
  have hother : conn ≠ conn' := by
    rintro rfl
    cases hget.symm.trans hget'
    exact hcopying id n htask
  change (z.sessions.erase conn).get? conn' = some e
  rw [Dict.get?_erase, if_neg hother]
  exact hget'

theorem admitSession (z : DropZone) (conn : ℕ) : Quiet z (z.admitSession conn) := by
  unfold DropZone.admitSession
  split_ifs with hsome hroom
  · exact refl z
  · have hnone : z.sessions.get? conn = none := by simpa using hsome
    refine ⟨le_rfl, .of_eq rfl, fun conn' d' hget' hblob => ?_,
      fun conn' e id n hget' htask => ⟨e, ?_, htask⟩⟩
    · change (z.sessions.insert conn {}).get? conn' = some d' at hget'
      rw [Dict.get?_insert] at hget'
      split_ifs at hget'
      · cases hget'
        exact absurd rfl hblob
      · exact ⟨d', hget', rfl⟩
    · have hother : conn ≠ conn' := by
        rintro rfl
        rw [hnone] at hget'
        cases hget'
      change (z.sessions.insert conn {}).get? conn' = some e
      rw [Dict.get?_insert_of_ne _ hother]
      exact hget'
  · exact refuse z conn _

/-- Expiry removes files no one holds. -/
theorem expire (z : DropZone) (now : ℕ) : Quiet z (z.expire now) :=
  foldl (fun z e => by
    dsimp only
    split_ifs
    · exact removeLocked z e.1 e.2
    · exact refl z) z.files.entries z

theorem close (z : DropZone) : Quiet z z.close := by
  unfold DropZone.close
  split_ifs
  · exact refl z
  · exact of_sessions (by rintro id f ⟨⟩) rfl le_rfl

end Quiet

/-! ## Steps that move an upload on

The rest are at one blob, each either refused, and then quiet, or a `Moves` of its session. -/

namespace Moves

variable {task : DropTask} {left : DropFile → Prop}

/-- The session's next task, and the file changed. -/
theorem of_insert {d' : DropSession} (hfiles : z'.files = z.files.insert id f')
    (hsessions : z'.sessions = z.sessions.insert conn d') (hids : z.ids ≤ z'.ids)
    (htask : d'.task = task) (hleft : left f') : Moves z z' conn id task left where
  ids := hids
  file g hget := by
    rw [hfiles, Dict.get?_insert_self] at hget
    cases hget
    exact hleft
  files id' g hne hget := by
    rw [hfiles, Dict.get?_insert_of_ne _ (Ne.symm hne)] at hget
    exact ⟨g, hget, rfl, rfl⟩
  session := ⟨d', by rw [hsessions, Dict.get?_insert_self], htask⟩
  sessions conn' hne := by rw [hsessions, Dict.get?_insert_of_ne _ (Ne.symm hne)]

/-- The session's next task, and no file is touched. -/
theorem of_eq {d' : DropSession} (hfiles : z'.files = z.files)
    (hsessions : z'.sessions = z.sessions.insert conn d') (hids : z.ids ≤ z'.ids)
    (htask : d'.task = task) (hleft : ∀ f, z.files.get? id = some f → left f) :
    Moves z z' conn id task left where
  ids := hids
  file g hget := hleft g (hfiles ▸ hget)
  files id' g _ hget := ⟨g, hfiles ▸ hget, rfl, rfl⟩
  session := ⟨d', by rw [hsessions, Dict.get?_insert_self], htask⟩
  sessions conn' hne := by rw [hsessions, Dict.get?_insert_of_ne _ (Ne.symm hne)]

theorem holdLocked (hleft : ∀ f', f'.stored = f.stored → f'.complete = f.complete → left f') :
    Moves z (z.holdLocked conn d id f task) conn id task left := by
  unfold DropZone.holdLocked
  split_ifs
  · exact of_insert rfl rfl le_rfl rfl (hleft f rfl rfl)
  · exact of_insert rfl rfl le_rfl rfl (hleft _ rfl rfl)

end Moves

/-- The file's bytes are as they were. -/
def Kept (z : DropZone) (id : ℕ) (δ : ℤ) (f' : DropFile) : Prop :=
  ∃ f, z.files.get? id = some f ∧ f'.stored = f.stored + δ ∧ f'.complete = f.complete

/-- A put is refused, or its session starts with an empty blob under a new id. -/
theorem put_cases (conn : ℕ) (d : DropSession) : Quiet z (z.put conn d) ∨
    Moves z (z.put conn d) conn z.ids (.uploading z.ids) fun f' => f'.stored = 0 ∧
    f'.complete = false := by
  have hids : Quiet z { z with ids := z.ids + 1 } :=
    Quiet.of_sessions (.of_eq rfl) rfl (Nat.le_succ _)
  unfold DropZone.put
  dsimp only
  split_ifs
  · exact .inl (hids.trans (Quiet.refuse _ conn _))
  · exact .inl (hids.trans (Quiet.refuse _ conn _))
  · refine .inr ?_
    have h : Moves { z with ids := z.ids + 1 }
        (DropZone.holdLocked { z with ids := z.ids + 1 } conn d z.ids { writing := true }
          (.uploading z.ids))
        conn z.ids (.uploading z.ids) fun f' => f'.stored = 0 ∧ f'.complete = false :=
      Moves.holdLocked fun f' hstored hcomplete => ⟨hstored, hcomplete⟩
    exact ⟨(Nat.le_succ _).trans h.ids, h.file, h.files, h.session, h.sessions⟩

/-- A resume is refused, or asks to reopen a blob that is not complete. -/
theorem resume_cases (conn : ℕ) (d : DropSession) (id : ℕ) :
    Quiet z (z.resume conn d id) ∨ ∃ f, z.files.get? id = some f ∧ f.complete = false ∧
      Moves z (z.resume conn d id) conn id (.reopening id) (z.Kept id 0) := by
  unfold DropZone.resume
  split
  · exact .inl (Quiet.refuse z conn _)
  next f hfile =>
    split_ifs with hwriting hcomplete
    · exact .inl (Quiet.refuse z conn _)
    · exact .inl (Quiet.refuse z conn _)
    · refine .inr ⟨f, hfile, Bool.eq_false_of_not_eq_true hcomplete, Moves.holdLocked ?_⟩
      exact fun f' hstored hsame => ⟨f, hfile, by rw [hstored, add_zero], hsame⟩

/-- A chunk is refused, or there is room for it and it may be copied. -/
theorem reserve_cases (hget : z.sessions.get? conn = some d)
    (htask : d.task = .uploading id) (n : ℕ) (hasRoom : Bool) :
    Quiet z (z.reserve conn d id n hasRoom) ∨
      Moves z (z.reserve conn d id n hasRoom) conn id (.copying id n) (z.Kept id n) := by
  have hcopying : ∀ id n, d.task ≠ .copying id n := fun _ _ h => by
    rw [htask] at h
    cases h
  have hrefused : ∀ {task : DropTask} (reason : DropReason), task.blob = none →
      Quiet z ((z.refuse conn reason).goTo conn d task) := fun reason hblob =>
    Quiet.refuse_goTo hget hcopying hblob reason
  unfold DropZone.reserve
  split
  · exact .inl (hrefused .full rfl)
  split
  · exact .inl (hrefused .unknown rfl)
  next f hfile =>
    split
    · exact .inl (hrefused .size rfl)
    split
    · exact .inl (hrefused .full rfl)
    · exact .inr (Moves.of_insert rfl rfl le_rfl rfl ⟨f, hfile, rfl, rfl⟩)

/-- A chunk copied whole. -/
theorem copied_whole {n : ℤ} {written : ℕ} (hwhole : ¬ (written : ℤ) < n) :
    Moves z (z.copied conn d id n written) conn id (.uploading id) (z.Kept id 0) := by
  rw [DropZone.copied, if_neg hwhole]
  exact Moves.of_eq rfl rfl le_rfl rfl fun f hfile => ⟨f, hfile, (add_zero _).symm, rfl⟩

/-- A chunk cut short. -/
theorem copied_short {n : ℤ} {written : ℕ} (hshort : (written : ℤ) < n) :
    Moves z (z.copied conn d id n written) conn id (.returning id false)
      (z.Kept id (written - n)) := by
  rw [DropZone.copied, if_pos hshort, DropZone.unreserve]
  split
  next hnone =>
    refine Moves.of_eq rfl rfl le_rfl rfl fun f hfile => ?_
    rw [hnone] at hfile
    cases hfile
  next f hfile =>
    exact Moves.of_insert rfl rfl le_rfl rfl ⟨f, hfile, by dsimp only; omega, rfl⟩

/-- A commit is refused, or its blob is complete from now on. -/
theorem commit_cases (hget : z.sessions.get? conn = some d) (htask : d.task = .uploading id) :
    Quiet z (z.commit conn d id) ∨
      Moves z (z.commit conn d id) conn id (.returning id true) fun f' =>
        ∃ f, z.files.get? id = some f ∧ f'.stored = f.stored := by
  have hcopying : ∀ id n, d.task ≠ .copying id n := fun _ _ h => by
    rw [htask] at h
    cases h
  unfold DropZone.commit
  split
  · exact .inl (Quiet.refuse_goTo hget hcopying rfl _)
  next f hfile => exact .inr (Moves.of_insert rfl rfl le_rfl rfl ⟨f, hfile, rfl⟩)

end DropZone
