import IGhostVT.Relay.DropTransfers

/-!
# Relay/DropStored — what the relay counts of a file is there

A blob starts with what is stored of its file's stream, in every state but while a chunk is being
copied, when it starts with what was stored before and what of the chunk has landed (`Stage`).  A
committed file is its whole stream, and no session writes it again (`Sealed`).
-/

open Relay

namespace DropZone

variable {z z' z'' : DropZone} {id conn : ℕ} {task : DropTask} {left : DropFile → Prop}

/-- What a session is at, by the session. -/
theorem taskOf_eq_some :
    z.taskOf conn = some task ↔ ∃ d, z.sessions.get? conn = some d ∧ d.task = task :=
  Option.map_eq_some_iff

/-- A blob has one writer: whoever else is at it is the same session. -/
theorem Sound.writer_unique (h : Sound z) {conn' : ℕ} {task' : DropTask}
    (hconn : z.taskOf conn = some task) (hconn' : z.taskOf conn' = some task')
    (hblob : task.writes = some id) (hblob' : task'.blob = some id) :
    conn' = conn := by
  obtain ⟨d, hd, rfl⟩ := taskOf_eq_some.mp hconn
  obtain ⟨d', hd', rfl⟩ := taskOf_eq_some.mp hconn'
  exact h.writers.unique id conn' conn ⟨d', hd', DropTask.writes_of_blob hblob'⟩ ⟨d, hd, hblob⟩

/-- A quiet change starts no task on a blob. -/
theorem Quiet.taskOf (h : Quiet z z') (htask : z'.taskOf conn = some task)
    (hblob : task.blob ≠ none) :
    z.taskOf conn = some task := by
  obtain ⟨d', hd', rfl⟩ := taskOf_eq_some.mp htask
  obtain ⟨d, hd, hsame⟩ := h.begun conn d' hd' hblob
  exact taskOf_eq_some.mpr ⟨d, hd, hsame⟩

/-- The session that moved is at its new task. -/
theorem Moves.taskOf (h : Moves z z' conn id task left) : z'.taskOf conn = some task :=
  taskOf_eq_some.mpr h.session

/-- Every other one is where it was. -/
theorem Moves.taskOf_of_ne (h : Moves z z' conn id task left) {conn' : ℕ} (hne : conn' ≠ conn) :
    z'.taskOf conn' = z.taskOf conn' := by
  rw [DropZone.taskOf, h.sessions conn' hne, DropZone.taskOf]

/-- The file is whole, and no session will write it. -/
structure Sealed (z : DropZone) (id : ℕ) : Prop where
  made : id < z.ids
  complete : ∀ f, z.files.get? id = some f → f.complete = true
  closed : ∀ conn task, z.taskOf conn = some task → task.blob ≠ some id

/-- A quiet change opens no blob again. -/
theorem Quiet.isSealed (hquiet : Quiet z z') (h : Sealed z id) : Sealed z' id where
  made := h.made.trans_le hquiet.ids
  complete f' hget := by
    obtain ⟨f, hf, -, hcomplete⟩ := hquiet.files id f' hget
    rw [hcomplete, h.complete f hf]
  closed conn task htask hblob := by
    have hbefore := hquiet.taskOf htask (by rw [hblob]; exact Option.some_ne_none id)
    exact h.closed conn task hbefore hblob

/-- A session that moves at one blob leaves every other one sealed. -/
theorem Moves.isSealed {id' : ℕ} (hmoves : Moves z z' conn id task left) (h : Sealed z id')
    (hne : id' ≠ id) (htask : ∀ id', task.blob = some id' → id' = id) : Sealed z' id' where
  made := h.made.trans_le hmoves.ids
  complete f' hget := by
    obtain ⟨f, hf, -, hcomplete⟩ := hmoves.files id' f' hne hget
    rw [hcomplete, h.complete f hf]
  closed conn' task' htask' hblob := by
    by_cases heq : conn' = conn
    · rw [heq, hmoves.taskOf] at htask'
      cases htask'
      exact hne (htask id' hblob)
    · rw [hmoves.taskOf_of_ne heq] at htask'
      exact h.closed conn' task' htask' hblob

end DropZone

namespace DropTransfers

open DropZone

variable {c : Drop.Codec} {source : ℕ → DropSource} {t t' : DropTransfers} {zone : DropZone}
  {id conn : ℕ} {f : DropFile} {task : DropTask}

/-! ## Blobs

Blobs are named by random ids, and what a session is at names the blob it writes. An operation of
the zone leaves the tasks of other sessions alone, or ends them. -/

/-- The blob starts with so many bytes of the file's stream. -/
structure Backed (c : Drop.Codec) (source : ℕ → DropSource) (blob : List UInt8) (id n : ℕ) :
    Prop where
  le : n ≤ (stream c source id).length
  take : blob.take n = (stream c source id).take n

variable {blob bytes : List UInt8} {m n : ℕ}

/-- The blob holds at least what backs it. -/
theorem Backed.length (h : Backed c source blob id n) : n ≤ blob.length := by
  have hlength := congrArg List.length h.take
  rw [List.length_take, List.length_take, Nat.min_eq_left h.le] at hlength
  omega

/-- What backs more bytes backs fewer. -/
theorem Backed.mono (h : Backed c source blob id n) (hle : m ≤ n) : Backed c source blob id m where
  le := hle.trans h.le
  take := by
    have htake := congrArg (List.take m) h.take
    rwa [List.take_take, List.take_take, Nat.min_eq_left hle] at htake

/-- No bytes are backed by any blob. -/
theorem backed_zero (blob : List UInt8) (id : ℕ) : Backed c source blob id 0 := ⟨Nat.zero_le _, rfl⟩

/-- A blob cut to what was counted. -/
theorem Backed.takeD (h : Backed c source blob id n) : Backed c source (blob.takeD n 0) id n where
  le := h.le
  take := by
    rw [List.takeD_eq_take 0 h.length, List.take_take, Nat.min_self, h.take]

/-- The stream's next bytes, written behind the ones before. -/
theorem Backed.writeAt (h : Backed c source blob id n) {rest : List UInt8}
    (hdrop : (stream c source id).drop n = bytes ++ rest) :
    Backed c source (writeAt blob n bytes) id (n + bytes.length) := by
  have hlength : (stream c source id).length - n = bytes.length + rest.length := by
    rw [← List.length_drop, hdrop, List.length_append]
  refine ⟨by have := h.le; omega, ?_⟩
  have hwritten : (Relay.writeAt blob n bytes).take (n + bytes.length) = blob.take n ++ bytes := by
    rw [Relay.writeAt, List.takeD_eq_take 0 h.length]
    refine List.take_left' ?_
    rw [List.length_append, List.length_take, Nat.min_eq_left h.length]
  rw [hwritten, h.take]
  conv_rhs => rw [← List.take_append_drop n (stream c source id), hdrop, ← List.append_assoc]
  refine (List.take_left' ?_).symm
  rw [List.length_append, List.length_take, Nat.min_eq_left h.le]

/-! ## What is stored

The bytes of a blob against the stream its client sends: a prefix that was landed, and chunks on
their way. `Stage` says for each task of the session how far the two are. -/

/-- Where an upload stands: what of the chunk being copied has landed, and what is left of the
stream. -/
structure Copies (c : Drop.Codec) (source : ℕ → DropSource) (u : DropUpload) (blob : List UInt8)
    (id : ℕ) (stored n : ℤ) : Prop where
  landed : u.landed ≤ n
  position : u.position + n = stored + u.landed
  backed : Backed c source blob id u.position
  unsent : ∃ chunk rest, u.chunks = chunk :: rest ∧ chunk.length = n ∧
    (stream c source id).drop u.position = chunk.drop u.landed ++ rest.flatten

/-- **What is stored of a file that a session is at.** -/
def Stage (c : Drop.Codec) (source : ℕ → DropSource) (u : DropUpload) (blob : List UInt8) (id : ℕ)
    (f : DropFile) : DropTask → Prop
  | .reopening _ =>
    f.complete = false ∧ Backed c source blob id f.stored.toNat ∧ u.offset = f.stored.toNat
  | .uploading _ =>
    f.complete = false ∧ Backed c source blob id f.stored.toNat ∧ u.position = f.stored.toNat ∧
      (stream c source id).drop u.position = u.chunks.flatten
  | .copying _ n => f.complete = false ∧ Copies c source u blob id f.stored n
  | _ => Backed c source blob id f.stored.toNat ∧
      (f.complete = true → f.stored.toNat = (stream c source id).length)

/-- What is promised of the files and the sessions that write them. -/
structure Stored (c : Drop.Codec) (source : ℕ → DropSource) (t : DropTransfers) : Prop where
  sound : Sound t.zone
  writer : ∀ conn task id f, t.zone.taskOf conn = some task → task.blob = some id →
    t.zone.files.get? id = some f → Stage c source (t.uploads conn) (t.blobs id) id f task
  settled : ∀ id f, t.zone.files.get? id = some f →
    (∀ conn task, t.zone.taskOf conn = some task → task.blob ≠ some id) →
    Stage c source {} (t.blobs id) id f .ready

/-- What a stage says of the bytes is said of a file that holds the same ones. -/
theorem Stage.congr {u : DropUpload} {f' : DropFile} (h : Stage c source u blob id f task)
    (hstored : f'.stored = f.stored) (hcomplete : f'.complete = f.complete) :
    Stage c source u blob id f' task := by
  cases task <;> simpa only [Stage, hstored, hcomplete] using h

/-- A session that copies nothing leaves a file with what is stored. -/
theorem Stage.settles {u : DropUpload} (h : Stage c source u blob id f task)
    (hblob : task.blob = some id) (hcopying : ∀ n, task ≠ .copying id n) :
    Stage c source {} blob id f .ready := by
  cases task with
  | reopening id' => exact ⟨h.2.1, fun hcomplete => by rw [h.1] at hcomplete; cases hcomplete⟩
  | uploading id' => exact ⟨h.2.1, fun hcomplete => by rw [h.1] at hcomplete; cases hcomplete⟩
  | copying id' n =>
    cases Option.some.inj hblob
    exact absurd rfl (hcopying n)
  | ready => cases hblob
  | oversized => cases hblob
  | returning => cases hblob
  | closing => cases hblob

/-- A file that is still written to is not complete. -/
theorem Stage.not_complete {u : DropUpload} (h : Stage c source u blob id f task)
    (hblob : task.blob = some id) : f.complete = false := by
  cases task with
  | reopening => exact h.1
  | uploading => exact h.1
  | copying => exact h.1
  | ready => cases hblob
  | oversized => cases hblob
  | returning => cases hblob
  | closing => cases hblob

/-- A change that moves no task and no blob keeps what is stored. -/
theorem Stored.quiet (h : Stored c source t) (hquiet : Quiet t.zone zone) (hsound : Sound zone) :
    Stored c source { t with zone } where
  sound := hsound
  writer conn task id f' htask hblob hget := by
    obtain ⟨f, hf, hstored, hcomplete⟩ := hquiet.files id f' hget
    have hbefore := hquiet.taskOf htask (by rw [hblob]; exact Option.some_ne_none id)
    exact (h.writer conn task id f hbefore hblob hf).congr hstored hcomplete
  settled id f' hget hnone := by
    obtain ⟨f, hf, hstored, hcomplete⟩ := hquiet.files id f' hget
    refine Stage.congr ?_ hstored hcomplete
    by_cases hwriter : ∃ conn task, t.zone.taskOf conn = some task ∧ task.blob = some id
    · obtain ⟨conn, task, htask, hblob⟩ := hwriter
      refine (h.writer conn task id f htask hblob hf).settles hblob fun n hcopying => ?_
      obtain ⟨d, hd, hd'⟩ := taskOf_eq_some.mp htask
      obtain ⟨d', hd'', hsame⟩ := hquiet.copying conn d id n hd (hd'.trans hcopying)
      exact hnone conn (.copying id n) (taskOf_eq_some.mpr ⟨d', hd'', hsame⟩) rfl
    · exact h.settled id f hf fun conn task htask hblob => hwriter ⟨conn, task, htask, hblob⟩

/-- One session moves on: the others, and the files they write, are as they were. -/
theorem Stored.moves {left : DropFile → Prop} (h : Stored c source t)
    (hmoves : Moves t.zone t'.zone conn id task left) (hsound : Sound t'.zone)
    (hblobs : ∀ id', id' ≠ id → t'.blobs id' = t.blobs id')
    (huploads : ∀ conn', conn' ≠ conn → t'.uploads conn' = t.uploads conn')
    (hbefore : ∀ task id', t.zone.taskOf conn = some task → task.blob = some id' → id' = id)
    (htask : ∀ id', task.blob = some id' → id' = id)
    (hothers : ∀ conn' task', conn' ≠ conn → t.zone.taskOf conn' = some task' →
    task'.blob ≠ some id)
    (hstage : ∀ f', left f' → t'.zone.files.get? id = some f' →
      Stage c source (t'.uploads conn) (t'.blobs id) id f' task)
    (hsettled : task.blob = none → ∀ f', left f' → t'.zone.files.get? id = some f' →
      Stage c source {} (t'.blobs id) id f' .ready) : Stored c source t' where
  sound := hsound
  writer conn' task' id' f' htask' hblob hget := by
    by_cases hconn : conn' = conn
    · rw [hconn, hmoves.taskOf] at htask'
      cases htask'
      cases htask id' hblob
      rw [hconn]
      exact hstage f' (hmoves.file f' hget) hget
    · rw [hmoves.taskOf_of_ne hconn] at htask'
      have hne : id' ≠ id := fun heq => hothers conn' task' hconn htask' (heq ▸ hblob)
      obtain ⟨f, hf, hstored, hcomplete⟩ := hmoves.files id' f' hne hget
      rw [hblobs id' hne, huploads conn' hconn]
      exact (h.writer conn' task' id' f htask' hblob hf).congr hstored hcomplete
  settled id' f' hget hnone := by
    by_cases heq : id' = id
    · subst heq
      have hinactive : task.blob = none := by
        cases hblob : task.blob with
        | none => rfl
        | some id'' =>
          cases htask id'' hblob
          exact absurd hblob (hnone conn task hmoves.taskOf)
      exact hsettled hinactive f' (hmoves.file f' hget) hget
    · obtain ⟨f, hf, hstored, hcomplete⟩ := hmoves.files id' f' heq hget
      rw [hblobs id' heq]
      refine (h.settled id' f hf fun conn' task' htask' hblob => ?_).congr hstored hcomplete
      by_cases hconn : conn' = conn
      · exact heq (hbefore task' id' (hconn ▸ htask') hblob)
      · exact hnone conn' task' ((hmoves.taskOf_of_ne hconn).trans htask') hblob

/-- A step of the zone: what is stored stays so, and what is whole stays whole. -/
structure Goes (c : Drop.Codec) (source : ℕ → DropSource) (t t' : DropTransfers) : Prop where
  stored : Stored c source t'
  isSealed : ∀ id, Sealed t.zone id → Sealed t'.zone id ∧ t'.blobs id = t.blobs id
  ids : t.zone.ids ≤ t'.zone.ids

/-- And no client's upload moves on by it. -/
theorem Stored.goes_quiet (h : Stored c source t) (hquiet : Quiet t.zone zone)
    (hsound : Sound zone) :
    Goes c source t { t with zone } :=
  ⟨h.quiet hquiet hsound, fun _ hsealed => ⟨hquiet.isSealed hsealed, rfl⟩, hquiet.ids⟩

/-- An upload goes on. -/
theorem Stored.goes_on {left : DropFile → Prop} {before : DropTask} (h : Stored c source t)
    (hconn : t.zone.taskOf conn = some before) (hbefore : before.blob = some id)
    (hmoves : Moves t.zone t'.zone conn id task left) (hsound : Sound t'.zone)
    (hblobs : ∀ id', id' ≠ id → t'.blobs id' = t.blobs id')
    (huploads : ∀ conn', conn' ≠ conn → t'.uploads conn' = t.uploads conn')
    (htask : ∀ id', task.blob = some id' → id' = id)
    (hstage : ∀ f', left f' → t'.zone.files.get? id = some f' →
      Stage c source (t'.uploads conn) (t'.blobs id) id f' task)
    (hsettled : task.blob = none → ∀ f', left f' → t'.zone.files.get? id = some f' →
      Stage c source {} (t'.blobs id) id f' .ready) : Goes c source t t' where
  stored := by
    refine h.moves hmoves hsound hblobs huploads (fun task' id' htask' hblob => ?_) htask
      (fun conn' task' hne htask' hblob => ?_) hstage hsettled
    · rw [hconn] at htask'
      cases htask'
      exact Option.some.inj (hblob.symm.trans hbefore)
    · exact hne (h.sound.writer_unique hconn htask' (DropTask.writes_of_blob hbefore) hblob)
  isSealed id' hsealed := by
    have hne : id' ≠ id := fun heq => hsealed.closed conn before hconn (heq ▸ hbefore)
    exact ⟨hmoves.isSealed hsealed hne htask, hblobs id' hne⟩
  ids := hmoves.ids

/-- An upload begins. -/
theorem Stored.goes_begun {left : DropFile → Prop} (h : Stored c source t)
    (hready : t.zone.taskOf conn = some .ready) (hopen : ¬ Sealed t.zone id)
    (hmoves : Moves t.zone t'.zone conn id task left) (hsound : Sound t'.zone)
    (htask : task.blob = some id) (hblobs : ∀ id', id' ≠ id → t'.blobs id' = t.blobs id')
    (huploads : ∀ conn', conn' ≠ conn → t'.uploads conn' = t.uploads conn')
    (hstage : ∀ f', left f' → t'.zone.files.get? id = some f' →
      Stage c source (t'.uploads conn) (t'.blobs id) id f' task) : Goes c source t t' where
  stored := by
    refine h.moves hmoves hsound hblobs huploads (fun task' id' htask' hblob => ?_)
      (fun id' hblob => Option.some.inj (hblob.symm.trans htask))
      (fun conn' task' hne htask' hblob => ?_) hstage fun hnone => ?_
    · rw [hready] at htask'
      cases htask'
      cases hblob
    · have hafter := (hmoves.taskOf_of_ne hne).trans htask'
      exact hne (hsound.writer_unique hmoves.taskOf hafter (DropTask.writes_of_blob htask) hblob)
    · rw [htask] at hnone
      cases hnone
  isSealed id' hsealed := by
    have hne : id' ≠ id := fun heq => hopen (heq ▸ hsealed)
    refine ⟨hmoves.isSealed hsealed hne fun id'' hblob => ?_, hblobs id' hne⟩
    exact Option.some.inj (hblob.symm.trans htask)
  ids := hmoves.ids

/-! ## Sessions

One lemma for each operation an upload goes through, put, resume, reopen, reserve, copy and commit,
each with what its client does on the answer (`follow`). -/

variable {d : DropSession}

/-- A session there has its task. -/
theorem taskOf_of_get? (hget : t.zone.sessions.get? conn = some d) :
    t.zone.taskOf conn = some d.task :=
  taskOf_eq_some.mpr ⟨d, hget, rfl⟩

/-- What is unsent is the rest of the stream. -/
theorem flatten_unsent (id n : ℕ) :
    (unsent c source id n).flatten = (stream c source id).drop n := by
  rw [unsent, Drop.flatten_resumed, Drop.flatten_chunks, Nat.sub_zero]
  rfl

/-- A new upload starts with an empty blob and the whole stream to send, or is refused. -/
theorem Stored.put (h : Stored c source t) (hget : t.zone.sessions.get? conn = some d)
    (hready : d.task = .ready) (valid hasRoom created : Bool)
    (hsound : Sound (t.zone.act conn d (.put valid hasRoom created) .ready)) :
    Goes c source t (t.follow c source (t.zone.act conn d (.put valid hasRoom created) .ready) conn
      (.put valid hasRoom created) .ready) := by
  have htask := taskOf_of_get? hget
  rw [hready] at htask
  have hcases : Quiet t.zone (t.zone.act conn d (.put valid hasRoom created) .ready) ∨
      Moves t.zone (t.zone.act conn d (.put valid hasRoom created) .ready) conn t.zone.ids
        (.uploading t.zone.ids) fun f' => f'.stored = 0 ∧ f'.complete = false := by
    rw [DropZone.act]
    split_ifs
    · exact put_cases conn d
    · exact .inl (Quiet.refuse _ conn _)
    · exact .inl (Quiet.refuse _ conn _)
  generalize t.zone.act conn d (.put valid hasRoom created) .ready = zone at hcases hsound
  rw [follow]
  rcases hcases with hquiet | hmoves
  · rw [if_neg]
    · exact h.goes_quiet hquiet hsound
    · intro hbegun
      have hbefore := hquiet.taskOf hbegun (Option.some_ne_none _)
      rw [htask] at hbefore
      cases hbefore
  · rw [if_pos hmoves.taskOf]
    refine h.goes_begun htask (fun hsealed => hsealed.made.false) hmoves hsound rfl
      (fun id' hne => Function.update_of_ne hne _ _)
        (fun conn' hne => Function.update_of_ne hne _ _) ?_
    rintro f' ⟨hstored, hcomplete⟩ -
    dsimp only
    rw [Function.update_self, Function.update_self]
    refine ⟨hcomplete, ?_, ?_, ?_⟩
    · rw [hstored]
      exact backed_zero _ _
    · rw [hstored]
      rfl
    · exact (flatten_unsent t.zone.ids 0).symm

/-- A resumed upload asks for the blob to be opened again. -/
theorem Stored.resume (h : Stored c source t) (hget : t.zone.sessions.get? conn = some d)
    (hready : d.task = .ready) (id : ℕ) (hsound : Sound (t.zone.resume conn d id)) :
    Goes c source t (t.follow c source (t.zone.resume conn d id) conn (.resume id) .ready) := by
  have htask := taskOf_of_get? hget
  rw [hready] at htask
  have hcases := @resume_cases t.zone conn d id
  generalize t.zone.resume conn d id = zone at hcases hsound
  rcases hcases with hquiet | ⟨f, hf, hincomplete, hmoves⟩
  · have hsame : t.follow c source zone conn (.resume id) .ready = { t with zone } := by
      rw [follow]
      split
      · rfl
      · refine if_neg fun hbegun => ?_
        have hbefore := hquiet.taskOf hbegun (Option.some_ne_none _)
        rw [htask] at hbefore
        cases hbefore
    rw [hsame]
    exact h.goes_quiet hquiet hsound
  · rw [follow, hf]
    dsimp only
    rw [if_pos hmoves.taskOf]
    refine h.goes_begun htask (fun hsealed => ?_) hmoves hsound rfl (fun _ _ => rfl)
      (fun conn' hne => Function.update_of_ne hne _ _) ?_
    · rw [hsealed.complete f hf] at hincomplete
      cases hincomplete
    rintro f' ⟨g, hg, hstored, hcomplete⟩ hget'
    cases hf.symm.trans hg
    rw [add_zero] at hstored
    -- No one else is at the file, since this session is.
    have hsettled := h.settled id f hf fun conn' task' htask' hblob => by
      by_cases heq : conn' = conn
      · rw [heq, htask] at htask'
        cases htask'
        cases hblob
      · have hafter := (hmoves.taskOf_of_ne heq).trans htask'
        exact heq (hsound.writer_unique hmoves.taskOf hafter rfl hblob)
    dsimp only
    rw [Function.update_self]
    refine ⟨hcomplete.trans hincomplete, ?_, ?_⟩
    · rw [hstored]
      exact hsettled.1
    · rw [hstored]

/-- Once it is, the client sends the stream from where the blob ends. -/
theorem Stored.reopened (h : Stored c source t) (hget : t.zone.sessions.get? conn = some d)
    (htask : d.task = .reopening id) (ok : Bool)
    (hsound : Sound (t.zone.act conn d (.reopened ok) (.reopening id))) :
    Goes c source t (t.follow c source (t.zone.act conn d (.reopened ok) (.reopening id)) conn
      (.reopened ok) (.reopening id)) := by
  have hconn := taskOf_of_get? hget
  rw [htask] at hconn
  have hcopying : ∀ id n, d.task ≠ .copying id n := fun _ _ heq => by
    rw [htask] at heq
    cases heq
  cases ok with
  | false => exact h.goes_quiet (Quiet.refuse_goTo hget hcopying rfl _) hsound
  | true =>
    have hmoves : Moves t.zone (t.zone.goTo conn d (.uploading id)) conn id (.uploading id)
        (t.zone.Kept id 0) :=
      Moves.of_eq rfl rfl le_rfl rfl fun f hf => ⟨f, hf, (add_zero _).symm, rfl⟩
    refine h.goes_on hconn rfl hmoves hsound (fun id' hne => Function.update_of_ne hne _ _)
      (fun conn' hne => Function.update_of_ne hne _ _)
        (fun id' hblob => (Option.some.inj hblob).symm)
      ?_ fun hnone => by cases hnone
    rintro f' ⟨f, hf, hstored, hcomplete⟩ -
    obtain ⟨hincomplete, hbacked, hoffset⟩ := h.writer conn _ id f hconn rfl hf
    rw [add_zero] at hstored
    change Stage c source (Function.update t.uploads conn _ conn)
      (Function.update t.blobs id _ id) id f' _
    rw [Function.update_self, Function.update_self, hoffset]
    refine ⟨hcomplete.trans hincomplete, ?_, ?_, ?_⟩
    · rw [hstored]
      exact hbacked.takeD
    · rw [hstored]
    · exact (flatten_unsent id _).symm

/-- Room for the next chunk is reserved, or the upload ends. -/
theorem Stored.reserve (h : Stored c source t) (hget : t.zone.sessions.get? conn = some d)
    (htask : d.task = .uploading id) (n : ℕ) (hasRoom : Bool)
    (hnext : (t.uploads conn).chunks.head?.map List.length = some n)
    (hsound : Sound (t.zone.reserve conn d id n hasRoom)) :
    Goes c source t
      (t.follow c source (t.zone.reserve conn d id n hasRoom) conn (.reserve n hasRoom)
      (.uploading id)) := by
  have hconn := taskOf_of_get? hget
  rw [htask] at hconn
  have hcases := reserve_cases hget htask n hasRoom
  generalize t.zone.reserve conn d id n hasRoom = zone at hcases hsound
  rw [follow]
  rcases hcases with hquiet | hmoves
  · rw [if_neg]
    · exact h.goes_quiet hquiet hsound
    · intro hbegun
      have hbefore := hquiet.taskOf hbegun (Option.some_ne_none _)
      rw [hconn] at hbefore
      cases hbefore
  · rw [if_pos hmoves.taskOf]
    refine h.goes_on hconn rfl hmoves hsound (fun _ _ => rfl)
      (fun conn' hne => Function.update_of_ne hne _ _)
        (fun id' hblob => (Option.some.inj hblob).symm)
      ?_ fun hnone => by cases hnone
    rintro f' ⟨f, hf, hstored, hcomplete⟩ -
    obtain ⟨hincomplete, hbacked, hposition, hrest⟩ := h.writer conn _ id f hconn rfl hf
    have hnonneg := h.sound.quota.nonneg id f hf
    obtain ⟨chunk, hhead, hlength⟩ := Option.map_eq_some_iff.mp hnext
    obtain ⟨rest, hchunks⟩ := List.head?_eq_some_iff.mp hhead
    dsimp only
    rw [Function.update_self]
    refine ⟨hcomplete.trans hincomplete, ?_, ?_, ?_, chunk, rest, hchunks, ?_, ?_⟩
    · exact Int.natCast_nonneg n
    · dsimp only
      rw [hposition, hstored]
      omega
    · dsimp only
      rw [hposition]
      exact hbacked
    · rw [hlength]
    · dsimp only
      rw [hrest, hchunks, List.flatten_cons, List.drop_zero]

/-- A chunk is in the blob, or as much of it as came before the link was cut. -/
theorem Stored.copied (h : Stored c source t) (hget : t.zone.sessions.get? conn = some d) {n : ℤ}
    (htask : d.task = .copying id n) (written : ℕ) (hlanded : written ≤ (t.uploads conn).landed)
    (hsound : Sound (t.zone.copied conn d id n written)) :
    Goes c source t (t.follow c source (t.zone.copied conn d id n written) conn (.copied written)
      (.copying id n)) := by
  have hconn := taskOf_of_get? hget
  rw [htask] at hconn
  rw [follow]
  by_cases hshort : (written : ℤ) < n
  · rw [if_pos hshort]
    have hmoves := @copied_short t.zone id conn d n written hshort
    refine h.goes_on hconn rfl hmoves hsound (fun _ _ => rfl) (fun _ _ => rfl)
      (fun id' hblob => by cases hblob) ?_ fun _ => ?_
    all_goals
      rintro f' ⟨f, hf, hstored, hcomplete⟩ -
      obtain ⟨hincomplete, hcopies⟩ := h.writer conn _ id f hconn rfl hf
      have hposition := hcopies.position
      refine ⟨hcopies.backed.mono ?_, fun hcomplete' => ?_⟩
      · rw [hstored]
        omega
      · rw [hcomplete, hincomplete] at hcomplete'
        cases hcomplete'
  · rw [if_neg hshort]
    have hmoves := @copied_whole t.zone id conn d n written hshort
    refine h.goes_on hconn rfl hmoves hsound (fun _ _ => rfl)
      (fun conn' hne => Function.update_of_ne hne _ _)
        (fun id' hblob => (Option.some.inj hblob).symm)
      ?_ fun hnone => by cases hnone
    rintro f' ⟨f, hf, hstored, hcomplete⟩ -
    obtain ⟨hincomplete, hlandedLe, hposition, hbacked, chunk, rest, hchunks, hlength, hdrop⟩ :=
      h.writer conn _ id f hconn rfl hf
    have hall : chunk.drop (t.uploads conn).landed = [] := List.drop_of_length_le (by omega)
    rw [add_zero] at hstored
    have hat : (t.uploads conn).position = f'.stored.toNat := by
      rw [hstored]
      omega
    dsimp only
    rw [Function.update_self]
    refine ⟨hcomplete.trans hincomplete, ?_, hat, ?_⟩
    · rw [← hat]
      exact hbacked
    · dsimp only
      rw [hdrop, hall, hchunks]
      rfl

/-- **A committed blob is the whole stream**, for no chunk is left to send. -/
theorem Stored.commit (h : Stored c source t) (hget : t.zone.sessions.get? conn = some d)
    (htask : d.task = .uploading id) (hsent : (t.uploads conn).chunks = [])
    (hsound : Sound (t.zone.commit conn d id)) :
    Goes c source t { t with zone := t.zone.commit conn d id } := by
  have hconn := taskOf_of_get? hget
  rw [htask] at hconn
  rcases commit_cases hget htask with hquiet | hmoves
  · exact h.goes_quiet hquiet hsound
  · refine h.goes_on hconn rfl hmoves hsound (fun _ _ => rfl) (fun _ _ => rfl)
      (fun id' hblob => by cases hblob) ?_ fun _ => ?_
    all_goals
      rintro f' ⟨f, hf, hstored⟩ -
      obtain ⟨-, hbacked, hposition, hrest⟩ := h.writer conn _ id f hconn rfl hf
      have hend : (stream c source id).length ≤ f.stored.toNat := by
        rw [hsent, List.flatten_nil, hposition, List.drop_eq_nil_iff] at hrest
        exact hrest
      refine ⟨by rw [hstored]; exact hbacked, fun _ => ?_⟩
      rw [hstored]
      exact le_antisymm hbacked.le hend

/-- One action of one session. -/
theorem Stored.follow (h : Stored c source t) (hget : t.zone.sessions.get? conn = some d)
    (action : DropZone.Action) (hpermits : permits c source t (.act conn action) = true) :
    Goes c source t (t.follow c source (t.zone.act conn d action d.task) conn action d.task) := by
  have hsound := h.sound.act hget action
  have hconn := taskOf_of_get? hget
  have hsame : Goes c source t { t with zone := t.zone } := h.goes_quiet (Quiet.refl _) h.sound
  simp only [permits, Bool.and_eq_true] at hpermits
  replace hpermits := hpermits.2
  cases htask : d.task with
  | ready =>
    have hcopying : ∀ id n, d.task ≠ .copying id n := fun _ _ heq => by
      rw [htask] at heq
      cases heq
    rw [htask] at hsound
    cases action with
    | put valid hasRoom created => exact h.put hget htask valid hasRoom created hsound
    | resume id => exact h.resume hget htask id hsound
    | get id offset => cases hpermits
    | remove id => exact h.goes_quiet (Quiet.remove _ conn id) hsound
    | endSession now => exact h.goes_quiet (Quiet.endSession hget hcopying now) hsound
    | _ => exact hsame
  | reopening id =>
    rw [htask] at hsound
    cases action with
    | reopened ok => exact h.reopened hget htask ok hsound
    | _ => exact hsame
  | uploading id =>
    have hcopying : ∀ id n, d.task ≠ .copying id n := fun _ _ heq => by
      rw [htask] at heq
      cases heq
    rw [htask] at hsound hconn
    cases action with
    | reserve n hasRoom => exact h.reserve hget htask n hasRoom (by simpa using hpermits) hsound
    | commit =>
      rw [hconn] at hpermits
      exact h.commit hget htask (of_decide_eq_true hpermits).1 hsound
    | abandon => exact h.goes_quiet (Quiet.goTo hget hcopying rfl) hsound
    | _ => exact hsame
  | copying id n =>
    rw [htask] at hsound
    cases action with
    | copied written => exact h.copied hget htask written (by simpa using hpermits) hsound
    | _ => exact hsame
  | oversized id =>
    have hcopying : ∀ id n, d.task ≠ .copying id n := fun _ _ heq => by
      rw [htask] at heq
      cases heq
    rw [htask] at hsound
    cases action with
    | removeOversized =>
      refine h.goes_quiet ?_ hsound
      rw [DropZone.act]
      split
      · exact Quiet.goTo hget hcopying rfl
      next f hfile => exact (Quiet.removeLocked t.zone id f).trans (Quiet.goTo hget hcopying rfl)
    | _ => exact hsame
  | returning id goesOn =>
    have hcopying : ∀ id n, d.task ≠ .copying id n := fun _ _ heq => by
      rw [htask] at heq
      cases heq
    rw [htask] at hsound
    cases action with
    | stopWriting =>
      refine h.goes_quiet ((Quiet.stopWriting t.zone id).trans (Quiet.goTo ?_ hcopying ?_)) hsound
      · rw [Quiet.sessions_stopWriting]
        exact hget
      · split <;> rfl
    | _ => exact hsame
  | closing =>
    have hcopying : ∀ id n, d.task ≠ .copying id n := fun _ _ heq => by
      rw [htask] at heq
      cases heq
    rw [htask] at hsound
    cases action with
    | endSession now => exact h.goes_quiet (Quiet.endSession hget hcopying now) hsound
    | _ => exact hsame

/-- Any event of the zone, with what the clients do on it. -/
theorem Stored.zoneStep (h : Stored c source t) (e : DropZone.Event) :
    Goes c source t (t.zoneStep c source e) := by
  have hsame : Goes c source t t := h.goes_quiet (Quiet.refl _) h.sound
  have hsound := h.sound.step e
  unfold DropTransfers.zoneStep
  split
  case isFalse => exact hsame
  case isTrue hpermits =>
    cases e with
    | admitSession conn => exact h.goes_quiet (Quiet.admitSession _ conn) hsound
    | expire now => exact h.goes_quiet (Quiet.expire _ now) hsound
    | close => exact h.goes_quiet (Quiet.close _) hsound
    | act conn action =>
      cases hget : t.zone.sessions.get? conn with
      | none =>
        have hnone : t.zone.taskOf conn = none := by rw [taskOf, hget]; rfl
        have hzone : t.zone.step (.act conn action) = t.zone := by rw [DropZone.step, hget]
        dsimp only
        rw [hnone, hzone]
        exact hsame
      | some d =>
        have hzone : t.zone.step (.act conn action) = t.zone.act conn d action d.task := by
          rw [DropZone.step, hget]
        dsimp only
        rw [taskOf_of_get? hget, hzone]
        exact h.follow hget action hpermits

/-- Bytes on their way come into the blob in the order they were sent. -/
theorem Stored.land (h : Stored c source t) (conn k : ℕ) : Goes c source t (t.land conn k) := by
  unfold DropTransfers.land
  split
  case h_2 => exact h.goes_quiet (Quiet.refl _) h.sound
  case h_1 id n hconn =>
    have hmoves : Moves t.zone t.zone conn id (.copying id n) (t.zone.Kept id 0) :=
      ⟨le_rfl, fun f' hf => ⟨f', hf, (add_zero _).symm, rfl⟩, fun _ f' _ hf => ⟨f', hf, rfl, rfl⟩,
        taskOf_eq_some.mp hconn, fun _ _ => rfl⟩
    refine h.goes_on hconn rfl hmoves h.sound (fun id' hne => Function.update_of_ne hne _ _)
      (fun conn' hne => Function.update_of_ne hne _ _)
        (fun id' hblob => (Option.some.inj hblob).symm)
      ?_ fun hnone => by cases hnone
    rintro f' - hf
    obtain ⟨hincomplete, hlanded, hposition, hbacked, chunk, rest, hchunks, hlength, hdrop⟩ :=
      h.writer conn _ id f' hconn rfl hf
    have hhead : (t.uploads conn).chunks.headD [] = chunk := by rw [hchunks]; rfl
    dsimp only
    rw [Function.update_self, Function.update_self, hhead]
    generalize hbytes : (chunk.drop (t.uploads conn).landed).take k = bytes
    have hsplit : chunk.drop (t.uploads conn).landed
        = bytes ++ chunk.drop ((t.uploads conn).landed + bytes.length) := by
      rw [← List.drop_drop, ← hbytes, List.length_take]
      rcases le_total k (chunk.drop (t.uploads conn).landed).length with hle | hle
      · rw [Nat.min_eq_left hle, List.take_append_drop]
      · rw [Nat.min_eq_right hle, List.take_of_length_le hle, List.drop_length, List.append_nil]
    have hfits : (t.uploads conn).landed + bytes.length ≤ chunk.length := by
      have hlengths := congrArg List.length hsplit
      rw [List.length_append, List.length_drop, List.length_drop] at hlengths
      omega
    rw [hsplit, List.append_assoc] at hdrop
    refine ⟨hincomplete, ?_, ?_, hbacked.writeAt hdrop, chunk, rest, hchunks, hlength, ?_⟩
    · dsimp only
      omega
    · dsimp only
      omega
    · dsimp only
      rw [← List.drop_drop, hdrop, List.drop_left]

end DropTransfers
