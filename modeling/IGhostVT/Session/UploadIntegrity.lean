import IGhostVT.Lib.Run
import IGhostVT.Session.FileUploadStore

/-!
# Session/UploadIntegrity — what is on disk of an upload

Parts of any number of uploads arrive in any order, over any links, again and overlapping.  `Holds`
is what the store keeps of each: on disk stands what was received, a proper part of the size, and —
when every part's bytes are the file's — the file's own first bytes.  `Fate` is what one request may
do to it.
-/

namespace FileUploadStore

/-! ## Writing at the end of a file -/

theorem pwrite_end (file bytes : List UInt8) : pwrite file file.length bytes = file ++ bytes := by
  simp [pwrite]

/-- **The loop appends what is left of the buffer**, however the kernel cuts it, unless a write
fails. -/
theorem writeLoop_spec (buffer : List UInt8) {offset : ℕ}
    (hsize : offset + buffer.length < 2 ^ 63) :
    ∀ (script : List PwriteOutcome) (done : ℕ) (file : List UInt8), done ≤ buffer.length →
      file.length = offset + done →
        writeLoop buffer offset script done file = some (file ++ buffer.drop done, true) ∨
          ∃ file', writeLoop buffer offset script done file = some (file', false) ∧
            PwriteOutcome.failed ∈ script
  | [], done, file, hdone, hfile => by
      rw [writeLoop]
      split_ifs with h1 h2
      · rw [← hfile, pwrite_end]
        exact Or.inl rfl
      · exact absurd (by omega) h2
      · rw [List.drop_of_length_le (by omega), List.append_nil]
        exact Or.inl rfl
  | outcome :: rest, done, file, hdone, hfile => by
      rw [writeLoop.eq_def]
      dsimp only
      split_ifs with h1 h2
      · cases outcome with
        | failed => exact Or.inr ⟨file, rfl, List.mem_cons_self⟩
        | interrupted =>
          rcases writeLoop_spec buffer hsize rest done file hdone hfile with h | ⟨file', h, hmem⟩
          · exact Or.inl h
          · exact Or.inr ⟨file', h, List.mem_cons_of_mem _ hmem⟩
        | wrote count =>
          dsimp only
          generalize hk : min (count + 1) (buffer.length - done) = k
          have hle : done + k ≤ buffer.length := by omega
          rw [← hfile, pwrite_end]
          have hlen : (file ++ (buffer.drop done).take k).length = offset + (done + k) := by
            simp only [List.length_append, List.length_take, List.length_drop]
            omega
          have htail : file ++ (buffer.drop done).take k ++ buffer.drop (done + k)
              = file ++ buffer.drop done := by
            rw [List.append_assoc, ← List.drop_drop, List.take_append_drop]
          rcases writeLoop_spec buffer hsize rest _ _ hle hlen with h | ⟨file', h, hmem⟩
          · exact Or.inl (h.trans (by rw [htail]))
          · exact Or.inr ⟨file', h, List.mem_cons_of_mem _ hmem⟩
      · exact absurd (by omega) h2
      · rw [List.drop_of_length_le (by omega), List.append_nil]
        exact Or.inl rfl

/-! ## What an operation leaves alone -/

/-- An upload that a step left as it was: its entry, and its file. -/
def Untouched (store store' : FileUploadStore) (id : ℕ) : Prop :=
  store'.uploads.get? id = store.uploads.get? id ∧
    ((store.uploads.get? id).isSome → store'.disk id = store.disk id)

theorem Untouched.refl (store : FileUploadStore) (id : ℕ) : Untouched store store id :=
  ⟨rfl, fun _ => rfl⟩

theorem Untouched.trans {s₁ s₂ s₃ : FileUploadStore} {id : ℕ} (h : Untouched s₁ s₂ id)
    (h' : Untouched s₂ s₃ id) : Untouched s₁ s₃ id :=
  ⟨h'.1.trans h.1, fun hs => (h'.2 (h.1 ▸ hs)).trans (h.2 hs)⟩

theorem untouched_removeTree (store : FileUploadStore) (world : World) {id id' : ℕ} (h : id ≠ id') :
    Untouched store (store.removeTree world id) id' := by
  rw [removeTree]
  split_ifs
  · exact ⟨rfl, fun _ => Function.update_of_ne h.symm _ _⟩
  · exact Untouched.refl store id'

theorem untouched_cancel (store : FileUploadStore) (world : World) {id id' : ℕ} (h : id ≠ id') :
    Untouched store (store.cancel world id) id' := by
  rw [cancel]
  split
  · exact Untouched.refl store id'
  · have herase : Untouched store { store with uploads := store.uploads.erase id } id' :=
      ⟨by rw [Dict.get?_erase, if_neg h], fun _ => rfl⟩
    exact herase.trans (untouched_removeTree _ world h)

/-- A cancelled upload is known no more. -/
theorem get?_cancel_self (store : FileUploadStore) (world : World) (id : ℕ) :
    (store.cancel world id).uploads.get? id = none := by
  rw [cancel]
  split
  · assumption
  · rw [removeTree]
    split_ifs <;> simp [Dict.get?_erase]

theorem get?_finish (store : FileUploadStore) (id id' : ℕ) :
    (store.finish id).uploads.get? id' = if id = id' then none else store.uploads.get? id' := by
  rw [finish]
  split
  · rename_i h
    split_ifs with heq
    · exact heq ▸ h
    · rfl
  · dsimp only
    split_ifs with h1 heq heq <;> simp [Dict.get?_erase, heq]

@[simp] theorem disk_finish (store : FileUploadStore) (id : ℕ) :
    (store.finish id).disk = store.disk := by
  rw [finish]
  split
  · rfl
  · dsimp only
    split_ifs <;> rfl

theorem untouched_finish (store : FileUploadStore) {id id' : ℕ} (h : id ≠ id') :
    Untouched store (store.finish id) id' :=
  ⟨by rw [get?_finish, if_neg h], fun _ => by rw [disk_finish]⟩

/-- A finished upload is remembered, unless its own id is the oldest that is. -/
theorem finished_finish {store : FileUploadStore} {id : ℕ} {u : Upload}
    (hu : store.uploads.get? id = some u) :
    (store.finish id).finished.get? id = some ⟨u.size, u.path, u.name⟩ ∨
      store.finishedOrder.head? = some id := by
  simp only [finish, hu]
  split_ifs with h
  · cases horder : store.finishedOrder with
    | nil => simp [horder] at h
    | cons first rest =>
      by_cases hfirst : first = id
      · exact Or.inr (by rw [hfirst]; rfl)
      · left
        simp [Dict.get?_erase, hfirst]
  · exact Or.inl (Dict.get?_insert_self _ _ _)

theorem untouched_sweep (store : FileUploadStore) (world : World) (id : ℕ) :
    Untouched store (store.sweep world) id := by
  refine ⟨rfl, fun hsome => if_neg fun h => ?_⟩
  rw [Option.isNone_iff_eq_none] at h
  rw [h.1] at hsome
  cases hsome

/-- Expiry leaves an upload alone, or gives it up when it is idle. -/
theorem expireIdle_cases (store : FileUploadStore) (world : World) (id : ℕ) :
    Untouched store (store.expireIdle world) id ∨
      ((store.expireIdle world).uploads.get? id = none ∧
        ∃ u, store.uploads.get? id = some u ∧ u.lastProgress + idleLifetime < world.now) := by
  have hfold : ∀ (es : List (ℕ × Upload)) (s : FileUploadStore),
      (Untouched s (es.foldl (fun s e => s.cancel world e.1) s) id) ∨
        ((es.foldl (fun s e => s.cancel world e.1) s).uploads.get? id = none ∧
          id ∈ es.map Prod.fst) := by
    intro es
    induction es with
    | nil => exact fun s => Or.inl (Untouched.refl s id)
    | cons e es ih =>
      intro s
      rw [List.foldl_cons]
      by_cases he : e.1 = id
      · refine Or.inr ⟨?_, List.mem_cons.mpr (Or.inl he.symm)⟩
        have hnone : (s.cancel world e.1).uploads.get? id = none := by
          rw [← he]
          exact get?_cancel_self s world e.1
        rcases ih (s.cancel world e.1) with h | h
        · exact h.1.trans hnone
        · exact h.1
      · have hcancel := untouched_cancel s world he
        rcases ih (s.cancel world e.1) with h | h
        · exact Or.inl (hcancel.trans h)
        · exact Or.inr ⟨h.1, List.mem_cons_of_mem _ h.2⟩
  rcases hfold _ store with h | ⟨h, hmem⟩
  · exact Or.inl h
  · obtain ⟨e, he, rfl⟩ := List.mem_map.mp hmem
    obtain ⟨hentry, hidle⟩ := List.mem_filter.mp he
    exact Or.inr ⟨h, e.2, Dict.mem_entries_iff.mp hentry, by simpa using hidle⟩

/-! ## What the store keeps of an upload -/

/-- On disk stands what was received, a proper part of the size; and when `Genuine` the bytes are
the first of `file`. -/
structure Holds (Genuine : Prop) (store : FileUploadStore) (file : List UInt8) (id : ℕ)
    (u : Upload) : Prop where
  bound : u.size ≤ maximumUploadByteCount
  short : u.received < u.size
  content : ∃ bytes, store.disk id = some bytes ∧ bytes.length = u.received ∧
    (Genuine → u.size = file.length ∧ bytes = file.take u.received)

theorem Holds.of_disk {G : Prop} {store store' : FileUploadStore} {file : List UInt8} {id : ℕ}
    {u : Upload} (h : Holds G store file id u) (hdisk : store'.disk id = store.disk id) :
    Holds G store' file id u :=
  ⟨h.bound, h.short, hdisk ▸ h.content⟩

/-- The numbers, whatever the bytes. -/
theorem Holds.forget {G : Prop} {store : FileUploadStore} {file : List UInt8} {id : ℕ} {u : Upload}
    (h : Holds G store file id u) : Holds False store file id u := by
  obtain ⟨bytes, hdisk, hlen, -⟩ := h.content
  exact ⟨h.bound, h.short, bytes, hdisk, hlen, False.elim⟩

/-- The bytes of `file` at `offset`, when a part lies within it. -/
def IsPart (file : List UInt8) (offset : ℕ) (data : List UInt8) : Prop :=
  offset + data.length ≤ file.length → data = (file.drop offset).take data.length

/-- What a write to a known upload comes to. -/
inductive Written (G : Prop) (store : FileUploadStore) (world : World) (file : List UInt8) (id : ℕ)
    (u : Upload) (offset : ℕ) (data : List UInt8) : FileUploadStore → Except Code ℕ → Prop
  /-- It would leave a hole or run past the size: nothing changes. -/
  | refused (h : ¬ (offset ≤ u.received ∧ offset + data.length ≤ u.size)) :
      Written G store world file id u offset data store (.error .invalidRequest)
  /-- All of it is here: nothing changes. -/
  | known (h : offset + data.length ≤ u.received) (h' : offset ≤ u.received) :
      Written G store world file id u offset data store (.ok u.received)
  /-- Its end is new, and there is more to come. -/
  | grown {store' : FileUploadStore} (h : u.received < offset + data.length)
      (hlt : offset + data.length < u.size)
      (hget : store'.uploads.get? id =
        some { u with received := offset + data.length, lastProgress := world.now })
      (hdisk : ∃ bytes, store'.disk id = some bytes ∧ bytes.length = offset + data.length ∧
        (G → bytes = file.take (offset + data.length))) :
      Written G store world file id u offset data store' (.ok (offset + data.length))
  /-- Its end is the file's. -/
  | finished {store' : FileUploadStore} (h : u.received < offset + data.length)
      (heq : offset + data.length = u.size) (hget : store'.uploads.get? id = none)
      (hfin : store'.finished.get? id = some ⟨u.size, u.path, u.name⟩ ∨
        store.finishedOrder.head? = some id)
      (hdisk : ∃ bytes, store'.disk id = some bytes ∧ bytes.length = u.size ∧ (G → bytes = file)) :
      Written G store world file id u offset data store' (.ok (offset + data.length))
  /-- The disk failed: the upload is given up. -/
  | failed {store' : FileUploadStore} (hmem : PwriteOutcome.failed ∈ world.pwrites)
      (hget : store'.uploads.get? id = none) :
      Written G store world file id u offset data store' (.error .operationFailed)

/-- A file's first bytes and a part of it that reaches further. -/
theorem take_append_part {file data : List UInt8} {offset received : ℕ}
    (hpart : IsPart file offset data) (hoff : offset ≤ received)
    (hend : received < offset + data.length) (hsize : offset + data.length ≤ file.length) :
    file.take received ++ data.drop (received - offset) = file.take (offset + data.length) := by
  have hdata := hpart hsize
  have hdrop : data.drop (received - offset)
      = (file.drop received).take (offset + data.length - received) := by
    have hcut := congrArg (List.drop (received - offset)) hdata
    rw [List.drop_take, List.drop_drop, show offset + (received - offset) = received by omega,
      show data.length - (received - offset) = offset + data.length - received by omega] at hcut
    exact hcut
  have hsplit : offset + data.length = received + (offset + data.length - received) := by omega
  rw [hdrop]
  conv_rhs => rw [hsplit, List.take_add]

/-- **What a part comes to.**  No part traps, whatever offset and length it claims. -/
theorem write_spec {G : Prop} {store : FileUploadStore} {file : List UInt8} {id : ℕ} {u : Upload}
    (hu : store.uploads.get? id = some u) (h : Holds G store file id u) (world : World) (offset : ℕ)
    (data : List UInt8) (hpart : G → IsPart file offset data) :
    ∃ store' result, store.write world id offset data = some (store', result) ∧
      Written G store world file id u offset data store' result ∧
        ∀ id', id ≠ id' → Untouched store store' id' := by
  have hmax : maximumUploadByteCount = 4 * 2 ^ 30 := rfl
  have hbound := h.bound
  have hshort := h.short
  have hsame : ∀ id', id ≠ id' → Untouched store store id' := fun id' _ => Untouched.refl store id'
  simp only [write, hu]
  by_cases hoff : offset ≤ u.received
  swap
  · exact ⟨store, _, if_neg hoff, .refused fun hc => hoff hc.1, hsame⟩
  rw [if_pos hoff]
  have hleft : subtracting u.size offset = some (u.size - offset) := if_pos (by omega)
  rw [hleft]
  by_cases hfit : data.length ≤ u.size - offset
  swap
  · exact ⟨store, _, if_neg hfit, .refused fun hc => hfit (by omega), hsame⟩
  have hadd : adding offset data.length = some (offset + data.length) := if_pos (by omega)
  rw [Option.bind_eq_bind, Option.bind_some, if_pos hfit, hadd, Option.bind_eq_bind,
    Option.bind_some]
  by_cases hnew : u.received < offset + data.length
  swap
  · exact ⟨store, _, if_neg hnew, .known (by omega) hoff, hsame⟩
  have hskip : (subtracting u.received offset).bind toInt = some (u.received - offset) := by
    rw [show subtracting u.received offset = some (u.received - offset) from if_pos hoff]
    exact if_pos (by omega)
  rw [if_pos hnew, hskip, Option.bind_some]
  obtain ⟨bytes, hdisk, hlen, hG⟩ := h.content
  rw [hdisk, Option.getD_some]
  have hsize : offset + data.length < 2 ^ 63 := by omega
  rcases writeLoop_spec data hsize world.pwrites (u.received - offset) bytes (by omega) (by omega)
    with hloop | ⟨file', hloop, hmem⟩
  · have hbytes : (bytes ++ data.drop (u.received - offset)).length = offset + data.length := by
      simp only [List.length_append, List.length_drop]
      omega
    have hfile : G →
        bytes ++ data.drop (u.received - offset) = file.take (offset + data.length) := by
      intro hg
      obtain ⟨hsize, rfl⟩ := hG hg
      exact take_append_part (hpart hg) hoff hnew (by omega)
    rw [hloop, Option.bind_some, if_pos rfl]
    by_cases hall : offset + data.length = u.size
    · refine ⟨_, _, rfl, ?_, fun id' hne => ?_⟩
      · rw [if_pos hall]
        refine .finished hnew hall (by rw [get?_finish, if_pos rfl]) ?_ ?_
        · exact @finished_finish _ id
            { u with received := offset + data.length, lastProgress := world.now }
            (Dict.get?_insert_self _ _ _)
        · refine ⟨_, by rw [disk_finish]; exact Function.update_self id _ _, hbytes.trans hall, ?_⟩
          intro hg
          rw [hfile hg, hall, (hG hg).1, List.take_length]
      · rw [if_pos hall]
        refine Untouched.trans ?_ (untouched_finish _ hne)
        exact ⟨Dict.get?_insert_of_ne _ hne _, fun _ => Function.update_of_ne hne.symm _ _⟩
    · refine ⟨_, _, rfl, ?_, fun id' hne => ?_⟩
      · rw [if_neg hall]
        exact .grown hnew (by omega) (Dict.get?_insert_self _ _ _)
          ⟨_, Function.update_self id _ _, hbytes, hfile⟩
      · rw [if_neg hall]
        exact ⟨Dict.get?_insert_of_ne _ hne _, fun _ => Function.update_of_ne hne.symm _ _⟩
  · rw [hloop]
    refine ⟨_, _, rfl, .failed hmem (get?_cancel_self _ world id), fun id' hne => ?_⟩
    refine Untouched.trans ?_ (untouched_cancel _ world hne)
    exact ⟨rfl, fun _ => Function.update_of_ne hne.symm _ _⟩

/-- A part of an upload that is not known changes nothing. -/
theorem write_unknown {store : FileUploadStore} {id : ℕ} (hu : store.uploads.get? id = none)
    (world : World) (offset : ℕ) (data : List UInt8) :
    ∃ result, store.write world id offset data = some (store, result) := by
  simp only [write, hu]
  cases store.finished.get? id with
  | none => exact ⟨_, rfl⟩
  | some done =>
    by_cases hoff : offset ≤ done.size
    · have hleft : subtracting done.size offset = some (done.size - offset) := if_pos hoff
      dsimp only
      rw [if_pos hoff, hleft, Option.bind_eq_bind, Option.bind_some]
      split_ifs
      · exact ⟨_, rfl⟩
      · exact ⟨_, rfl⟩
    · exact ⟨_, if_neg hoff⟩

/-! ## Beginning -/

theorem size_le_of_folder {store : FileUploadStore} {world : World} {size : ℕ} {root : String}
    (h : store.folder world size = .ok root) : size ≤ maximumUploadByteCount := by
  by_contra hsize
  rw [folder.eq_def, if_pos hsize] at h
  cases h

theorem disk_of_makeDirectory {store : FileUploadStore} {world : World} : ∀ {requestedID : Option ℕ}
    {id : ℕ}, store.makeDirectory world requestedID = some id → store.disk id = none
  | some requested, id, h => by
      rw [makeDirectory] at h
      split_ifs at h with hfree
      cases h
      exact Option.isNone_iff_eq_none.mp hfree.1
  | none, id, h => by
      rw [makeDirectory] at h
      split_ifs at h
      simpa using List.find?_some h

/-- The file is made where there was none. -/
theorem disk_of_makeFile {store : FileUploadStore} {world : World} {size : ℕ}
    {requestedID : Option ℕ} {id : ℕ} (h : store.makeFile world size requestedID = .ok id) :
    store.disk id = none := by
  cases hdir : store.makeDirectory world requestedID with
  | none =>
    rw [makeFile.eq_def, hdir] at h
    split_ifs at h
  | some made =>
    have hmade : made = id := by
      rw [makeFile.eq_def, hdir] at h
      dsimp only at h
      split_ifs at h
      split at h
      · cases h
      · exact Except.ok.inj h
    exact hmade ▸ disk_of_makeDirectory hdir

theorem untouched_enter (store : FileUploadStore) (world : World) {id id' : ℕ} (h : id ≠ id')
    (path name : String) (size : ℕ) :
    Untouched store (store.enter world id path name size) id' := by
  have hplain : Untouched store { store with
      uploads := store.uploads.insert id { path, name, size, lastProgress := world.now }
      disk := Function.update store.disk id (some []) } id' :=
    ⟨Dict.get?_insert_of_ne _ h _, fun _ => Function.update_of_ne h.symm _ _⟩
  rw [enter]
  split_ifs
  · exact hplain.trans (untouched_finish _ h)
  · exact hplain

theorem get?_enter (store : FileUploadStore) (world : World) (id : ℕ) (path name : String)
    (size : ℕ) : (store.enter world id path name size).uploads.get? id =
      if size = 0 then none else some { path, name, size, lastProgress := world.now } := by
  rw [enter]
  split_ifs
  · rw [get?_finish, if_pos rfl]
  · exact Dict.get?_insert_self _ _ _

theorem disk_enter (store : FileUploadStore) (world : World) (id : ℕ) (path name : String)
    (size : ℕ) : (store.enter world id path name size).disk id = some [] := by
  rw [enter]
  split_ifs
  · rw [disk_finish]
    exact Function.update_self id _ _
  · exact Function.update_self id _ _

/-- **A new upload is an empty file where there was none**; without one nothing but the sweep
happens. -/
theorem create_cases (store : FileUploadStore) (world : World) (name : String) (size : ℕ)
    (requestedID : Option ℕ) :
    (∃ store' failure, store.create world name size requestedID = (store', .error failure) ∧
      ∀ id, Untouched store store' id) ∨
    ∃ id path, store.create world name size requestedID
        = ((store.sweep world).enter world id path name size, .ok ⟨id, path⟩) ∧
      size ≤ maximumUploadByteCount ∧ (store.sweep world).disk id = none := by
  cases hroot : store.folder world size with
  | error failure => exact Or.inl ⟨store, failure, by rw [create, hroot], Untouched.refl store⟩
  | ok root =>
    cases hfile : (store.sweep world).makeFile world size requestedID with
    | error failure =>
      exact Or.inl ⟨store.sweep world, failure, by simp only [create, hroot, hfile],
        untouched_sweep store world⟩
    | ok id =>
      refine Or.inr ⟨id, root ++ "/" ++ String.ofList (Nat.toDigits 16 id) ++ "/" ++ name, ?_,
        size_le_of_folder hroot, disk_of_makeFile hfile⟩
      simp only [create, hroot, hfile]

/-! ## The uploads of a run -/

/-- The store, and the file each upload was begun for. -/
structure Uploading where
  store : FileUploadStore := {}
  file : ℕ → List UInt8 := fun _ => []
  /-- The process trapped. -/
  trapped : Bool := false

/-- What happens to the store. -/
inductive Event
  /-- A request over whatever link; `file` is what its client means to send, if it begins. -/
  | request (message : Message) (world : World) (file : List UInt8)
  /-- The expiry timer. -/
  | expireIdle (world : World)

namespace Uploading

variable (safeName : String → String)

/-- The upload a request makes. -/
def createdID (store : FileUploadStore) (world : World) (message : Message) : Option ℕ := do
  let name ← message.fileName
  let size ← message.fileSize
  if message.upload = some 0 ∨
    (store.beginAgain (safeName name) size message.upload).isSome then none
  else match (store.create world (safeName name) size message.upload).2 with
    | .ok begun => some begun.id
    | .error _ => none

def step (s : Uploading) : Event → Uploading
  | .request message world file =>
    match s.store.uploadFile safeName world message with
    | none => { s with trapped := true }
    | some (store, _) =>
      { s with
        store
        file := match createdID safeName s.store world message with
          | some id => Function.update s.file id file
          | none => s.file }
  | .expireIdle world => { s with store := s.store.expireIdle world }

/-- A client says how long its file is, and each part within it holds its bytes at that offset. -/
def Genuine (s : Uploading) : Event → Prop
  | .request message _ file =>
    (message.fileName.isSome → ∀ size ∈ message.fileSize, size = file.length) ∧
      ∀ id ∈ message.upload, ∀ data, message.data = some (some data) → ∀ offset ∈ message.offset,
        IsPart (s.file id) offset data
  | .expireIdle _ => True

/-- Every upload the store knows is kept. -/
structure Intact (G : Prop) (s : Uploading) : Prop where
  running : s.trapped = false
  holds : ∀ id u, s.store.uploads.get? id = some u → Holds G s.store (s.file id) id u

/-- Why an upload may be given up. -/
def GivesUp (s : Uploading) (id : ℕ) : Event → Prop
  | .request message world _ =>
    message.upload = some id ∧ (message.cancel = true ∨ PwriteOutcome.failed ∈ world.pwrites)
  | .expireIdle world =>
    ∃ u, s.store.uploads.get? id = some u ∧ u.lastProgress + idleLifetime < world.now

/-- What one event may do to an upload. -/
inductive Fate (G : Prop) (s s' : Uploading) (e : Event) (id : ℕ) (u : Upload) : Prop
  /-- It goes on: as much is here as before, or more. -/
  | stays {u' : Upload} (hget : s'.store.uploads.get? id = some u') (hname : u'.name = u.name)
      (hsize : u'.size = u.size) (hle : u.received ≤ u'.received) (hfile : s'.file id = s.file id)
  /-- It is whole. -/
  | finished (hget : s'.store.uploads.get? id = none)
      (hfin : s'.store.finished.get? id = some ⟨u.size, u.path, u.name⟩ ∨
        s.store.finishedOrder.head? = some id)
      (hdisk : ∃ bytes, s'.store.disk id = some bytes ∧ bytes.length = u.size ∧
        (G → bytes = s.file id))
      (hfile : s'.file id = s.file id)
  /-- It is given up, for a reason. -/
  | givenUp (hget : s'.store.uploads.get? id = none) (h : GivesUp s id e)

variable {safeName} {G : Prop} {s : Uploading}

/-- An upload has a directory, so no new one is made in its place. -/
theorem Intact.disk_ne_none (h : s.Intact G) {id : ℕ} {u : Upload}
    (hu : s.store.uploads.get? id = some u) (world : World) :
    (s.store.sweep world).disk id ≠ none := by
  obtain ⟨bytes, hdisk, -⟩ := (h.holds id u hu).content
  rw [(untouched_sweep s.store world id).2 (by rw [hu]; rfl), hdisk]
  exact nofun

/-- What a request comes to, by the upload it is about. -/
inductive Outcome (G : Prop) (s : Uploading) (message : Message) (world : World)
    (file : List UInt8) : FileUploadStore → (ℕ → List UInt8) → Prop
  /-- No upload is touched. -/
  | quiet {store' : FileUploadStore} (h : ∀ id, Untouched s.store store' id) :
      Outcome G s message world file store' s.file
  /-- A new one is made. -/
  | created {store' : FileUploadStore} {id size : ℕ} {path name : String}
      (hnew : s.store.uploads.get? id = none) (hbound : size ≤ maximumUploadByteCount)
      (hsize : G → size = file.length)
      (hget : store'.uploads.get? id =
        if size = 0 then none else some { path, name, size, lastProgress := world.now })
      (hdisk : store'.disk id = some []) (h : ∀ id', id ≠ id' → Untouched s.store store' id') :
      Outcome G s message world file store' (Function.update s.file id file)
  /-- One is cancelled. -/
  | cancelled {store' : FileUploadStore} {id : ℕ} (hid : message.upload = some id)
      (hcancel : message.cancel = true) (hget : store'.uploads.get? id = none)
      (h : ∀ id', id ≠ id' → Untouched s.store store' id') :
      Outcome G s message world file store' s.file
  /-- A part of one is written. -/
  | wrote {store' : FileUploadStore} {id offset : ℕ} {u : Upload} {data : List UInt8}
      {result : Except Code ℕ} (hid : message.upload = some id)
      (hu : s.store.uploads.get? id = some u)
      (hwrite : Written G s.store world (s.file id) id u offset data store' result)
      (h : ∀ id', id ≠ id' → Untouched s.store store' id') :
      Outcome G s message world file store' s.file

theorem step_begin (safeName : String → String) {message : Message} (world : World)
    (file : List UInt8) {name : String} {size : ℕ} (hname : message.fileName = some name)
    (hsize : message.fileSize = some size) (hid : message.upload ≠ some 0) :
    s.step safeName (.request message world file) = { s with
      store := (s.store.begin safeName world name size message.upload).1
      file := match createdID safeName s.store world message with
        | some id => Function.update s.file id file
        | none => s.file } := by
  simp only [step, uploadFile, hname, hsize, if_neg hid]
  rcases s.store.begin safeName world name size message.upload with ⟨store', result⟩
  cases result <;> rfl

theorem createdID_eq {message : Message} {world : World} {store : FileUploadStore} {name : String}
    {size : ℕ} (hname : message.fileName = some name) (hsize : message.fileSize = some size)
    (hid : message.upload ≠ some 0)
    (hagain : store.beginAgain (safeName name) size message.upload = none) :
    createdID safeName store world message =
      match (store.create world (safeName name) size message.upload).2 with
      | .ok begun => some begun.id
      | .error _ => none := by
  rw [createdID, hname, hsize]
  exact if_neg (by simp [hid, hagain])

/-- A begin: the same answer again, or a new upload. -/
theorem Intact.outcome_begin (h : s.Intact G) {message : Message} (world : World)
    {file : List UInt8} {name : String} {size : ℕ} (hname : message.fileName = some name)
    (hsize : message.fileSize = some size) (hid : message.upload ≠ some 0)
    (hgen : G → s.Genuine (.request message world file)) : ∃ store' file',
    s.step safeName (.request message world file) = { s with store := store', file := file' } ∧
      Outcome G s message world file store' file' := by
  rw [step_begin safeName world file hname hsize hid]
  cases hagain : s.store.beginAgain (safeName name) size message.upload with
  | some answer =>
    have hcreated : createdID safeName s.store world message = none := by
      rw [createdID, hname, hsize]
      exact if_pos (Or.inr (by rw [hagain]; rfl))
    refine ⟨s.store, s.file, ?_, .quiet (Untouched.refl s.store)⟩
    rw [begin, hagain, hcreated]
  | none =>
    have hcreated := @createdID_eq safeName _ world _ _ _ hname hsize hid hagain
    rcases create_cases s.store world (safeName name) size message.upload with
      ⟨store', failure, hcreate, hunt⟩ | ⟨id, path, hcreate, hbound, hfree⟩
    · refine ⟨store', s.file, ?_, .quiet hunt⟩
      rw [hcreate] at hcreated
      rw [begin, hagain, hcreated, hcreate]
    · have hnew : s.store.uploads.get? id = none := by
        cases hu : s.store.uploads.get? id with
        | none => rfl
        | some u => exact absurd hfree (h.disk_ne_none hu world)
      refine ⟨_, Function.update s.file id file, ?_, .created hnew hbound
        (fun hg => (hgen hg).1 (by rw [hname]; rfl) size hsize)
        (get?_enter _ _ id path (safeName name) size) (disk_enter _ _ id _ _ _) fun id' hne =>
          (untouched_sweep s.store world id').trans (untouched_enter _ _ hne _ _ _)⟩
      rw [hcreate] at hcreated
      rw [begin, hagain, hcreated, hcreate]

/-- A request that changes nothing. -/
theorem step_of_same {safeName : String → String} {message : Message} {world : World}
    {file : List UInt8} {reply : Reply}
    (hup : s.store.uploadFile safeName world message = some (s.store, reply))
    (hcreated : createdID safeName s.store world message = none) :
    s.step safeName (.request message world file) = s := by
  simp only [step, hup, hcreated]

theorem createdID_of_fileName {safeName : String → String} {message : Message}
    (hname : message.fileName = none) (store : FileUploadStore) (world : World) :
    createdID safeName store world message = none := by
  rw [createdID, hname]
  rfl

/-- A part that reaches the store. -/
theorem Intact.outcome_part (h : s.Intact G) {message : Message} (world : World)
    {file : List UInt8} {id offset : ℕ} {data : List UInt8} (hname : message.fileName = none)
    (hid : message.upload = some id) (hcancel : ¬ message.cancel = true)
    (hdata : message.data = some (some data)) (hoff : message.offset = some offset)
    (hmax : data.length ≤ maximumMessageDataByteCount)
    (hchunk : data.length ≤ uploadChunkByteCount * 2)
    (hgen : G → s.Genuine (.request message world file)) : ∃ store' file',
    s.step safeName (.request message world file) = { s with store := store', file := file' } ∧
      Outcome G s message world file store' file' := by
  have hinput : inputData message = some data := by
    rw [inputData, hdata]
    exact (Option.filter_some ..).trans (if_pos (decide_eq_true hmax))
  have hstep : ∀ {store' : FileUploadStore} {result : Except Code ℕ},
      s.store.write world id offset data = some (store', result) →
        s.step safeName (.request message world file) = { s with store := store' } := by
    intro store' result hwrite
    have hup : ∃ reply, s.store.uploadFile safeName world message = some (store', reply) := by
      simp only [uploadFile, hname, hid, if_neg hcancel, hdata, Option.isNone_some,
        Bool.false_eq_true, if_false, hinput, hoff, if_pos hchunk, hwrite]
      cases result <;> exact ⟨_, rfl⟩
    obtain ⟨reply, hup⟩ := hup
    simp only [step, hup, createdID_of_fileName hname]
  cases hu : s.store.uploads.get? id with
  | none =>
    obtain ⟨result, hwrite⟩ := write_unknown hu world offset data
    exact ⟨s.store, s.file, hstep hwrite, .quiet (Untouched.refl s.store)⟩
  | some u =>
    obtain ⟨store', result, hwrite, hspec, hunt⟩ :=
      write_spec hu (h.holds id u hu) world offset data
      fun hg => (hgen hg).2 id hid data hdata offset hoff
    exact ⟨store', s.file, hstep hwrite, .wrote hid hu hspec hunt⟩

/-- **Every request has one of these outcomes**, and none traps. -/
theorem Intact.outcome (h : s.Intact G) (message : Message) (world : World) (file : List UInt8)
    (hgen : G → s.Genuine (.request message world file)) : ∃ store' file',
    s.step safeName (.request message world file) = { s with store := store', file := file' } ∧
      Outcome G s message world file store' file' := by
  have hquiet : ∀ {reply : Reply},
      s.store.uploadFile safeName world message = some (s.store, reply) →
      createdID safeName s.store world message = none → ∃ store' file',
        s.step safeName (.request message world file) = { s with store := store', file := file' } ∧
          Outcome G s message world file store' file' := fun hup hcreated =>
    ⟨s.store, s.file, step_of_same hup hcreated, .quiet (Untouched.refl s.store)⟩
  cases hname : message.fileName with
  | some name =>
    cases hsize : message.fileSize with
    | none =>
      exact hquiet (by simp only [uploadFile, hname, hsize]; rfl)
        (by rw [createdID, hname, hsize]; rfl)
    | some size =>
      by_cases hid : message.upload = some 0
      · exact hquiet (by simp only [uploadFile, hname, hsize, if_pos hid]; rfl)
          (by rw [createdID, hname, hsize]; exact if_pos (Or.inl hid))
      · exact h.outcome_begin world hname hsize hid hgen
  | none =>
    have hcreated := @createdID_of_fileName safeName _ hname s.store world
    cases hid : message.upload with
    | none => exact hquiet (by simp only [uploadFile, hname, hid]; rfl) hcreated
    | some id =>
      by_cases hcancel : message.cancel = true
      · refine ⟨s.store.cancel world id, s.file, ?_, .cancelled hid hcancel
          (get?_cancel_self _ world id) fun id' hne => untouched_cancel _ world hne⟩
        have hup : s.store.uploadFile safeName world message
            = some (s.store.cancel world id, { code := .success }) := by
          simp only [uploadFile, hname, hid, if_pos hcancel]
        simp only [step, hup, hcreated]
      · have hup : s.store.uploadFile safeName world message =
            s.store.uploadFile safeName world message :=
          rfl
        conv_rhs at hup => simp only [uploadFile, hname, hid, if_neg hcancel]
        cases hdata : message.data with
        | none =>
          rw [hdata, Option.isNone_none, if_pos rfl] at hup
          split at hup
          · exact hquiet hup hcreated
          · exact hquiet hup hcreated
        | some value =>
          rw [hdata, Option.isNone_some, if_neg Bool.false_ne_true] at hup
          split at hup
          · rename_i data offset hinput hoff
            obtain ⟨hjoin, hmax⟩ := Option.filter_eq_some_iff.mp hinput
            split_ifs at hup with hchunk
            · have hvalue : message.data = some (some data) := by
                rw [hdata] at hjoin ⊢
                exact congrArg some hjoin
              exact h.outcome_part world hname hid hcancel hvalue hoff
                (of_decide_eq_true hmax) hchunk
                hgen
            · exact hquiet hup hcreated
          · exact hquiet hup hcreated

/-- An upload that was left alone is kept. -/
theorem Intact.holds_of_untouched (h : s.Intact G) {store' : FileUploadStore} {id : ℕ} {u : Upload}
    (hunt : Untouched s.store store' id) (hu : store'.uploads.get? id = some u) :
    Holds G store' (s.file id) id u := by
  have hold : s.store.uploads.get? id = some u := hunt.1.symm.trans hu
  exact (h.holds id u hold).of_disk (hunt.2 (by rw [hold]; rfl))

/-- What is kept of an upload a part was written to. -/
theorem Written.holds {store store' : FileUploadStore} {world : World} {file : List UInt8}
    {id offset : ℕ} {u u' : Upload} {data : List UInt8} {result : Except Code ℕ}
    (h : Written G store world file id u offset data store' result)
    (hu : store.uploads.get? id = some u) (hold : Holds G store file id u)
    (hu' : store'.uploads.get? id = some u') :
    Holds G store' file id u' := by
  cases h with
  | refused _ => exact Option.some.inj (hu.symm.trans hu') ▸ hold
  | known _ _ => exact Option.some.inj (hu.symm.trans hu') ▸ hold
  | grown _ hlt hget hdisk =>
    obtain rfl := Option.some.inj (hget.symm.trans hu')
    obtain ⟨bytes, hbytes, hlen, hG⟩ := hdisk
    obtain ⟨_, _, _, hG'⟩ := hold.content
    exact ⟨hold.bound, hlt, bytes, hbytes, hlen, fun hg => ⟨(hG' hg).1, hG hg⟩⟩
  | finished _ _ hget _ _ => exact absurd (hget.symm.trans hu') (by simp)
  | failed _ hget => exact absurd (hget.symm.trans hu') (by simp)

theorem Outcome.intact {message : Message} {world : World} {file : List UInt8}
    {store' : FileUploadStore} {file' : ℕ → List UInt8} (h : s.Intact G)
    (hout : Outcome G s message world file store' file') (id : ℕ) (u : Upload)
    (hu : store'.uploads.get? id = some u) : Holds G store' (file' id) id u := by
  cases hout with
  | quiet hunt => exact h.holds_of_untouched (hunt id) hu
  | @created new size path name hnew hbound hsize hget hdisk hunt =>
    by_cases hid : new = id
    · subst hid
      rw [hget] at hu
      split_ifs at hu with hzero
      obtain rfl := Option.some.inj hu
      refine ⟨hbound, Nat.pos_of_ne_zero hzero, [], hdisk, rfl, fun hg => ⟨?_, rfl⟩⟩
      rw [Function.update_self]
      exact hsize hg
    · rw [Function.update_of_ne (Ne.symm hid)]
      exact h.holds_of_untouched (hunt id hid) hu
  | @cancelled gone _ _ hget hunt =>
    by_cases hid : gone = id
    · subst hid
      exact absurd (hget.symm.trans hu) (by simp)
    · exact h.holds_of_untouched (hunt id hid) hu
  | @wrote part _ u₀ _ _ _ hu₀ hwrite hunt =>
    by_cases hid : part = id
    · subst hid
      exact Written.holds hwrite hu₀ (h.holds part u₀ hu₀) hu
    · exact h.holds_of_untouched (hunt id hid) hu

/-- **Every event keeps every upload**; with genuine parts, as the first bytes of its file. -/
theorem Intact.step (h : s.Intact G) (e : Event) (hgen : G → s.Genuine e) :
    (s.step safeName e).Intact G := by
  cases e with
  | request message world file =>
    obtain ⟨store', file', hstep, hout⟩ := @Intact.outcome safeName _ _ h message world file hgen
    rw [hstep]
    exact ⟨h.running, fun id u hu => hout.intact h id u hu⟩
  | expireIdle world =>
    refine ⟨h.running, fun id u hu => ?_⟩
    rcases expireIdle_cases s.store world id with hunt | ⟨hnone, -⟩
    · exact h.holds_of_untouched hunt hu
    · exact absurd (hnone.symm.trans hu) (by simp)

/-! ## What becomes of an upload -/

theorem Fate.of_untouched {s' : Uploading} {e : Event} {id : ℕ} {u : Upload}
    (hu : s.store.uploads.get? id = some u) (hunt : Untouched s.store s'.store id)
    (hfile : s'.file id = s.file id) : Fate G s s' e id u :=
  .stays (hunt.1.trans hu) rfl rfl le_rfl hfile

/-- **An upload only grows**, until it is whole or given up. -/
theorem Intact.fate (h : s.Intact G) (e : Event) (hgen : G → s.Genuine e) {id : ℕ} {u : Upload}
    (hu : s.store.uploads.get? id = some u) : Fate G s (s.step safeName e) e id u := by
  cases e with
  | request message world file =>
    obtain ⟨store', file', hstep, hout⟩ := @Intact.outcome safeName _ _ h message world file hgen
    rw [hstep]
    cases hout with
    | quiet hunt => exact .of_untouched hu (hunt id) rfl
    | @created new _ _ _ hnew _ _ _ _ hunt =>
      have hid : new ≠ id := fun hid => by
        subst hid
        exact absurd (hnew.symm.trans hu) (by simp)
      exact .of_untouched hu (hunt id hid) (Function.update_of_ne hid.symm _ _)
    | @cancelled gone hgone hcancel hget hunt =>
      by_cases hid : gone = id
      · exact .givenUp (hid ▸ hget) ⟨hid ▸ hgone, Or.inl hcancel⟩
      · exact .of_untouched hu (hunt id hid) rfl
    | @wrote part offset u₀ data _ hpart hu₀ hwrite hunt =>
      by_cases hid : part = id
      · subst hid
        obtain rfl := Option.some.inj (hu₀.symm.trans hu)
        cases hwrite with
        | refused _ => exact .of_untouched hu (Untouched.refl _ _) rfl
        | known _ _ => exact .of_untouched hu (Untouched.refl _ _) rfl
        | grown hnew _ hget _ => exact .stays hget rfl rfl hnew.le rfl
        | finished _ _ hget hfin hdisk =>
          exact .finished hget hfin hdisk rfl
        | failed hmem hget => exact .givenUp hget ⟨hpart, Or.inr hmem⟩
      · exact .of_untouched hu (hunt id hid) rfl
  | expireIdle world =>
    rcases expireIdle_cases s.store world id with hunt | ⟨hnone, hidle⟩
    · exact .of_untouched hu hunt rfl
    · exact .givenUp hnone hidle

/-- A request that is refused changes nothing, unless it asks for a new upload. -/
theorem Intact.same_of_refused (h : s.Intact G) {message : Message} {world : World}
    {store' : FileUploadStore} {reply : Reply} (hname : message.fileName = none)
    (hup : s.store.uploadFile safeName world message = some (store', reply))
    (hcode : reply.code = .invalidRequest ∨ reply.code = .unknownSession) : store' = s.store := by
  have hdone : ∀ {r : Reply}, some (s.store, r) = some (store', reply) → store' = s.store :=
    fun heq =>
    (congrArg Prod.fst (Option.some.inj heq)).symm
  cases hid : message.upload with
  | none =>
    simp only [uploadFile, hname, hid] at hup
    exact hdone hup
  | some id =>
    simp only [uploadFile, hname, hid] at hup
    split_ifs at hup with hcancel hdata
    · obtain rfl := congrArg Prod.snd (Option.some.inj hup)
      simp at hcode
    · split at hup
      · exact hdone hup
      · exact hdone hup
    · split at hup
      · rename_i data offset hinput hoff
        split_ifs at hup with hchunk
        · cases hu : s.store.uploads.get? id with
          | none =>
            obtain ⟨result, hwrite⟩ := write_unknown hu world offset data
            rw [hwrite] at hup
            cases result <;> exact hdone hup
          | some u =>
            obtain ⟨store₁, result, hwrite, hspec, -⟩ :=
              write_spec hu (h.holds id u hu).forget world offset data False.elim
            rw [hwrite] at hup
            cases hspec with
            | refused _ => exact hdone hup
            | known _ _ => exact hdone hup
            | grown _ _ _ _ =>
              obtain rfl := congrArg Prod.snd (Option.some.inj hup)
              simp at hcode
            | finished _ _ _ _ _ =>
              obtain rfl := congrArg Prod.snd (Option.some.inj hup)
              simp at hcode
            | failed _ _ =>
              obtain rfl := congrArg Prod.snd (Option.some.inj hup)
              simp at hcode
        · exact hdone hup
      · exact hdone hup

/-- The same id, name and size again: the same upload, as far as it got. -/
theorem begin_again {store : FileUploadStore} {id : ℕ} {u : Upload}
    (hu : store.uploads.get? id = some u) (world : World) {rawName : String}
    (hname : u.name = safeName rawName) :
    store.begin safeName world rawName u.size (some id) = (store, .ok ⟨id, u.path⟩) := by
  have hagain : store.beginAgain (safeName rawName) u.size (some id) = some (.ok ⟨id, u.path⟩) := by
    rw [beginAgain, Option.bind_eq_bind, Option.bind_some, hu]
    exact if_pos ⟨hname, rfl⟩
  rw [begin, hagain]

theorem begin_finished {store : FileUploadStore} {id : ℕ} {done : Finished}
    (hu : store.uploads.get? id = none) (hdone : store.finished.get? id = some done) (world : World)
    {rawName : String} (hname : done.name = safeName rawName) :
    store.begin safeName world rawName done.size (some id) = (store, .ok ⟨id, done.path⟩) := by
  have hagain : store.beginAgain (safeName rawName) done.size (some id)
      = some (.ok ⟨id, done.path⟩) := by
    rw [beginAgain, Option.bind_eq_bind, Option.bind_some, hu, hdone]
    exact if_pos ⟨hname, rfl⟩
  rw [begin, hagain]

/-- What the store promises of its uploads. -/
structure Integrity (safeName : String → String) (s : Uploading) : Prop where
  /-- On disk are the file's first `received` bytes; all of them, and it would be finished. -/
  disk : ∀ id u, s.store.uploads.get? id = some u →
    u.received < u.size ∧ s.store.disk id = some ((s.file id).take u.received)
  /-- What any part comes to. -/
  part : ∀ id u, s.store.uploads.get? id = some u →
    ∀ world offset data, IsPart (s.file id) offset data →
    ∃ store' result, s.store.write world id offset data = some (store', result) ∧
      Written True s.store world (s.file id) id u offset data store' result
  /-- A request that is refused changes nothing. -/
  refused : ∀ message world store' reply, message.fileName = none →
    s.store.uploadFile safeName world message = some (store', reply) →
      reply.code = .invalidRequest ∨ reply.code = .unknownSession → store' = s.store
  /-- An upload only grows, until it is whole or given up. -/
  fate : ∀ e, s.Genuine e → ∀ id u, s.store.uploads.get? id = some u →
    Fate True s (s.step safeName e) e id u
  /-- Beginning again resumes. -/
  again : ∀ id u, s.store.uploads.get? id = some u → ∀ world rawName, u.name = safeName rawName →
    s.store.begin safeName world rawName u.size (some id) = (s.store, .ok ⟨id, u.path⟩)
  /-- So it does when the file is whole. -/
  whole : ∀ id done, s.store.uploads.get? id = none → s.store.finished.get? id = some done →
    ∀ world rawName, done.name = safeName rawName →
      s.store.begin safeName world rawName done.size (some id) = (s.store, .ok ⟨id, done.path⟩)

theorem intact_start (G : Prop) : ({} : Uploading).Intact G := ⟨rfl, nofun⟩

/-- **Whatever requests arrive, nothing traps; and when the parts are the files' own, the store
keeps its promise.** -/
theorem run_integrity (safeName : String → String) :
    (∀ events, (Run.after (step safeName) {} events).trapped = false) ∧
      ∀ events, Run.Along (step safeName) Genuine {} events →
        Integrity safeName (Run.after (step safeName) {} events) := by
  refine ⟨fun events => ?_, fun events hgen => ?_⟩
  · exact (Run.invariant (fun s e (h : s.Intact False) => h.step e False.elim) events
      (intact_start False)).running
  · have h := hgen.invariant (fun s e (h : s.Intact True) hp => h.step e fun _ => hp) events
      (intact_start True)
    refine ⟨fun id u hu => ?_, fun id u hu world offset data hpart => ?_,
      fun message world store' reply hname hup hcode => h.same_of_refused hname hup hcode,
      fun e he id u hu => h.fate e (fun _ => he) hu, fun id u hu world rawName hname =>
        begin_again hu world hname, fun id done hu hdone world rawName hname =>
        begin_finished hu hdone world hname⟩
    · have hold := h.holds id u hu
      obtain ⟨bytes, hdisk, -, hG⟩ := hold.content
      exact ⟨hold.short, hdisk.trans (congrArg some (hG trivial).2)⟩
    · obtain ⟨store', result, hwrite, hspec, -⟩ :=
        write_spec hu (h.holds id u hu) world offset data fun _ => hpart
      exact ⟨store', result, hwrite, hspec⟩

/-- A quiet disk with room on it. -/
def calm : World where
  now := 0
  root := some (some "/upload")
  isStale _ := false
  free := none
  drawn := []
  mkdirFails := false
  directoryOpens := true
  creationError := none
  pwrites := [.wrote 0]
  removesTree := true

/-- Three bytes in two parts that overlap. -/
def overlappingParts : List Event :=
  [.request { fileName := some "a", fileSize := some 3, upload := some 5 } calm [1, 2, 3],
    .request { upload := some 5, data := some (some [1, 2]), offset := some 0 } calm [],
    .request { upload := some 5, data := some (some [2, 3]), offset := some 1 } calm []]

theorem genuine_overlappingParts : Run.Along (step id) Genuine {} overlappingParts := by
  refine ⟨⟨fun _ size hsize => ?_, nofun⟩, ⟨nofun, ?_⟩, ⟨nofun, ?_⟩, trivial⟩
  · exact (Option.some.inj hsize).symm
  · rintro _ ⟨⟩ _ ⟨⟩ _ ⟨⟩ _
    decide
  · rintro _ ⟨⟩ _ ⟨⟩ _ ⟨⟩ _
    decide

theorem integrity_overlappingParts :
    Run.Along (step id) Genuine {} overlappingParts ∧
      Integrity id (Run.after (step id) {} overlappingParts) :=
  ⟨genuine_overlappingParts, (run_integrity id).2 overlappingParts genuine_overlappingParts⟩

example : (Run.after (step id) {} overlappingParts).store.disk 5 = some [1, 2, 3] := by decide

end Uploading
end FileUploadStore
