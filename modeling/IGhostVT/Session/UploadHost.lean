import IGhostVT.Session.DaemonFileUpload

/-!
# Session/UploadHost — one client's upload in the host's store

What the requests of others leave of an upload (`Spared`), and what its own client's requests come
to.
-/

open FileUploadStore

namespace FileUploadStore

variable {store store' store₁ store₂ store₃ : FileUploadStore} {world : World} {id id' : ℕ}

/-! ## The two tables -/

/-- An upload is in one of the tables at most, and is named once in the order when it is
finished. -/
structure Tidy (store : FileUploadStore) (id : ℕ) : Prop where
  apart : (store.uploads.get? id).isSome → store.finished.get? id = none
  count : store.finishedOrder.count id = if (store.finished.get? id).isSome then 1 else 0

theorem Tidy.of_finished (h : store.Tidy id) (hfinished : store'.finished = store.finished)
    (horder : store'.finishedOrder = store.finishedOrder)
    (huploads : (store'.uploads.get? id).isSome → (store.uploads.get? id).isSome) :
    store'.Tidy id where
  apart hsome := by
    rw [hfinished]
    exact h.apart (huploads hsome)
  count := by
    rw [hfinished, horder]
    exact h.count

theorem Tidy.head_ne (h : store.Tidy id) (hnone : store.finished.get? id = none) :
    store.finishedOrder.head? ≠ some id := by
  intro hhead
  have hcount := h.count
  rw [hnone, Option.isSome_none, if_neg Bool.false_ne_true] at hcount
  exact List.count_eq_zero.mp hcount (List.mem_of_mem_head? hhead)

/-- Finishing, whichever upload it is. -/
theorem Tidy.finish (h : store.Tidy id) (id' : ℕ) : (store.finish id').Tidy id := by
  rw [FileUploadStore.finish]
  split
  · exact h
  next u hu =>
    have hnew : (id' = id → (store.finishedOrder ++ [id']).count id = 1) ∧
        (id' ≠ id → (store.finishedOrder ++ [id']).count id = store.finishedOrder.count id) := by
      refine ⟨fun heq => ?_, fun hne => ?_⟩
      · subst heq
        have hcount := h.count
        rw [h.apart (by rw [hu]; rfl), Option.isSome_none, if_neg Bool.false_ne_true] at hcount
        rw [List.count_append, hcount, List.count_singleton_self]
      · rw [List.count_append, List.count_singleton, if_neg (by simpa using hne), add_zero]
    have hbefore : (store.finishedOrder ++ [id']).count id
        = if ((store.finished.insert id' ⟨u.size, u.path, u.name⟩).get? id).isSome then 1
          else 0 := by
      by_cases heq : id' = id
      · rw [hnew.1 heq, heq, Dict.get?_insert_self]
        rfl
      · rw [hnew.2 heq, Dict.get?_insert_of_ne _ heq]
        exact h.count
    have hapart : ((store.uploads.erase id').get? id).isSome →
        (store.finished.insert id' ⟨u.size, u.path, u.name⟩).get? id = none := by
      intro hsome
      rw [Dict.get?_erase] at hsome
      split_ifs at hsome with heq
      · cases hsome
      · rw [Dict.get?_insert_of_ne _ heq]
        exact h.apart hsome
    dsimp only
    split_ifs with hlong
    · obtain ⟨first, rest, horder⟩ : ∃ first rest, store.finishedOrder ++ [id'] = first :: rest :=
        List.exists_cons_of_ne_nil (by simp)
      rw [horder] at hbefore ⊢
      refine ⟨fun hsome => ?_, ?_⟩
      · dsimp only
        rw [Dict.get?_erase]
        split_ifs
        · rfl
        · exact hapart hsome
      · dsimp only
        rw [List.head!_cons, List.tail_cons, Dict.get?_erase]
        by_cases hfirst : first = id
        · subst hfirst
          rw [List.count_cons_self] at hbefore
          rw [if_pos rfl, Option.isSome_none, if_neg Bool.false_ne_true]
          split_ifs at hbefore
          omega
        · rw [List.count_cons_of_ne hfirst] at hbefore
          rw [if_neg hfirst]
          exact hbefore
    · exact ⟨hapart, hbefore⟩

/-- What is remembered of another upload was remembered before. -/
theorem finished_finish_of_ne (hne : id' ≠ id) {d : Finished}
    (h : (store.finish id').finished.get? id = some d) : store.finished.get? id = some d := by
  rw [FileUploadStore.finish] at h
  split at h
  · exact h
  · dsimp only at h
    split_ifs at h
    · dsimp only at h
      rw [Dict.get?_erase] at h
      split_ifs at h
      rwa [Dict.get?_insert_of_ne _ hne] at h
    · rwa [Dict.get?_insert_of_ne _ hne] at h

theorem finished_removeTree (store : FileUploadStore) (world : World) (id : ℕ) :
    (store.removeTree world id).finished = store.finished ∧
      (store.removeTree world id).finishedOrder = store.finishedOrder := by
  rw [removeTree]
  split_ifs
  · exact ⟨rfl, rfl⟩
  · exact ⟨rfl, rfl⟩

/-- A cancel says nothing of what is finished. -/
theorem finished_cancel (store : FileUploadStore) (world : World) (id : ℕ) :
    (store.cancel world id).finished = store.finished ∧
      (store.cancel world id).finishedOrder = store.finishedOrder := by
  rw [cancel]
  split
  · exact ⟨rfl, rfl⟩
  · exact finished_removeTree _ world id

theorem isSome_cancel (hsome : ((store.cancel world id').uploads.get? id).isSome) :
    (store.uploads.get? id).isSome := by
  by_cases heq : id' = id
  · subst heq
    rw [get?_cancel_self] at hsome
    cases hsome
  · rwa [(untouched_cancel store world heq).1] at hsome

theorem Tidy.cancel (h : store.Tidy id) (world : World) (id' : ℕ) :
    (store.cancel world id').Tidy id :=
  have hsame := finished_cancel store world id'
  h.of_finished hsame.1 hsame.2 isSome_cancel

theorem finished_expireIdle (store : FileUploadStore) (world : World) :
    (store.expireIdle world).finished = store.finished ∧
      (store.expireIdle world).finishedOrder = store.finishedOrder := by
  have hfold : ∀ (entries : List (ℕ × Upload)) (store : FileUploadStore),
      (entries.foldl (fun store entry => store.cancel world entry.1) store).finished =
      store.finished ∧
        (entries.foldl (fun store entry => store.cancel world entry.1) store).finishedOrder
          = store.finishedOrder := by
    intro entries
    induction entries with
    | nil => exact fun _ => ⟨rfl, rfl⟩
    | cons entry entries ih =>
      intro store
      obtain ⟨hfinished, horder⟩ := ih (store.cancel world entry.1)
      obtain ⟨hfinished', horder'⟩ := finished_cancel store world entry.1
      exact ⟨hfinished.trans hfinished', horder.trans horder'⟩
  exact hfold _ store

/-! ## What others leave of it -/

/-- A step that was not about an upload. -/
structure Spared (store store' : FileUploadStore) (id : ℕ) : Prop where
  untouched : Untouched store store' id
  tidy : store.Tidy id → store'.Tidy id
  /-- It may be forgotten that it is finished. -/
  finished : ∀ d, store'.finished.get? id = some d → store.finished.get? id = some d

theorem Spared.trans (h : Spared store₁ store₂ id) (h' : Spared store₂ store₃ id) :
    Spared store₁ store₃ id :=
  ⟨h.untouched.trans h'.untouched, fun ht => h'.tidy (h.tidy ht),
    fun d hd => h.finished d (h'.finished d hd)⟩

theorem Spared.of_finished (h : Untouched store store' id)
    (hfinished : store'.finished = store.finished)
    (horder : store'.finishedOrder = store.finishedOrder) : Spared store store' id where
  untouched := h
  tidy ht := ht.of_finished hfinished horder fun hsome => by rwa [h.1] at hsome
  finished d hd := by rwa [hfinished] at hd

theorem Spared.refl (store : FileUploadStore) (id : ℕ) : Spared store store id :=
  .of_finished (Untouched.refl store id) rfl rfl

theorem spared_sweep (store : FileUploadStore) (world : World) (id : ℕ) :
    Spared store (store.sweep world) id :=
  .of_finished (untouched_sweep store world id) rfl rfl

theorem spared_cancel (store : FileUploadStore) (world : World) (hne : id' ≠ id) :
    Spared store (store.cancel world id') id :=
  have hsame := finished_cancel store world id'
  .of_finished (untouched_cancel store world hne) hsame.1 hsame.2

theorem spared_finish (store : FileUploadStore) (hne : id' ≠ id) :
    Spared store (store.finish id') id where
  untouched := untouched_finish store hne
  tidy h := h.finish id'
  finished _ := finished_finish_of_ne hne

/-- An entry and a file of its own. -/
theorem spared_insert (store : FileUploadStore) (hne : id' ≠ id) (u : Upload)
    (file : Option (List UInt8)) :
    Spared store { store with
      uploads := store.uploads.insert id' u, disk := Function.update store.disk id' file } id :=
  .of_finished ⟨Dict.get?_insert_of_ne _ hne _, fun _ => Function.update_of_ne hne.symm _ _⟩ rfl rfl

theorem spared_enter (store : FileUploadStore) (world : World) (hne : id' ≠ id) (path name : String)
    (size : ℕ) : Spared store (store.enter world id' path name size) id := by
  have hinsert := spared_insert store hne { path, name, size, lastProgress := world.now } (some [])
  rw [enter]
  split_ifs
  · exact hinsert.trans (spared_finish _ hne)
  · exact hinsert

/-! ## Making a new one -/

theorem id_of_makeDirectory :
    ∀ {requestedID : Option ℕ}, store.makeDirectory world requestedID = some id →
    requestedID = some id ∨ requestedID = none ∧ id ∈ world.drawn
  | some requested, h => by
    simp only [makeDirectory] at h
    split_ifs at h
    exact .inl h
  | none, h => by
    simp only [makeDirectory] at h
    split_ifs at h
    exact .inr ⟨rfl, List.mem_of_find?_eq_some h⟩

theorem id_of_makeFile {size : ℕ} {requestedID : Option ℕ}
    (h : store.makeFile world size requestedID = .ok id) :
    requestedID = some id ∨ requestedID = none ∧ id ∈ world.drawn := by
  rw [makeFile] at h
  split at h
  · cases h
  · split at h
    · cases h
    next id' hdirectory =>
      split at h
      · cases h
      · split at h
        · cases h
        · cases h
          exact id_of_makeDirectory hdirectory

theorem root_of_folder {size : ℕ} {root : String} (h : store.folder world size = .ok root) :
    world.root = some (some root) := by
  rw [folder] at h
  split_ifs at h
  split at h
  · cases h
  · cases h
  next root' hroot =>
    cases h
    exact hroot

theorem code_of_folder {size : ℕ} {failure : Code × String}
    (h : store.folder world size = .error failure) :
    failure.1 ≠ .success := by
  rw [folder] at h
  split at h
  · cases h
    exact nofun
  · split at h
    · cases h
      exact nofun
    · split at h
      · cases h
        exact nofun
      · cases h
        exact nofun
      · cases h

theorem code_of_makeFile {size : ℕ} {requestedID : Option ℕ} {failure : Code × String}
    (h : store.makeFile world size requestedID = .error failure) : failure.1 ≠ .success := by
  rw [makeFile] at h
  split at h
  · cases h
    exact nofun
  · split at h
    · cases h
      exact nofun
    · split at h
      · cases h
        exact nofun
      · split at h
        · cases h
          exact nofun
        · cases h

/-- What a new upload is, and why: the id asked for or one that was drawn, in the folder there
is. -/
inductive Created (store : FileUploadStore) (world : World) (name : String) (size : ℕ)
    (requestedID : Option ℕ) : FileUploadStore × Except (Code × String) Begun → Prop
  | refused {store' : FileUploadStore} {failure : Code × String} (hcode : failure.1 ≠ .success)
      (h : store' = store ∨ store' = store.sweep world) :
      Created store world name size requestedID (store', .error failure)
  | entered {id : ℕ} {root : String} (hroot : world.root = some (some root))
      (hid : requestedID = some id ∨ requestedID = none ∧ id ∈ world.drawn)
      (hsize : size ≤ maximumUploadByteCount) :
      Created store world name size requestedID
        ((store.sweep world).enter world id
          (root ++ "/" ++ String.ofList (Nat.toDigits 16 id) ++ "/" ++ name) name size,
          .ok ⟨id, root ++ "/" ++ String.ofList (Nat.toDigits 16 id) ++ "/" ++ name⟩)

theorem created_create (store : FileUploadStore) (world : World) (name : String) (size : ℕ)
    (requestedID : Option ℕ) :
    Created store world name size requestedID (store.create world name size requestedID) := by
  rw [create]
  split
  next hfolder => exact .refused (code_of_folder hfolder) (.inl rfl)
  next root hroot =>
    split
    next hfile => exact .refused (code_of_makeFile hfile) (.inr rfl)
    next id hfile =>
      exact .entered (root_of_folder hroot) (id_of_makeFile hfile) (size_le_of_folder hroot)

/-! ## Writing -/

/-- What a write leaves: the store as it was, or one upload's file and entry changed. -/
theorem write_cases {offset : ℕ} {data : List UInt8} {result : Except Code ℕ}
    (h : store.write world id offset data = some (store', result)) :
    store' = store ∨ ∃ file : List UInt8,
      store' = { store with disk := Function.update store.disk id (some file) }.cancel world id ∨
        ∃ u, ((store.uploads.get? id).isSome ∧ ∃ received, result = .ok received) ∧
          (store' = { store with
              uploads := store.uploads.insert id u,
                disk := Function.update store.disk id (some file) } ∨
            store' = { store with
              uploads := store.uploads.insert id u
              disk := Function.update store.disk id (some file) }.finish id) := by
  have hdone : ∀ {s : FileUploadStore} {r : Except Code ℕ}, some (s, r) = some (store', result) →
      store' = s := fun heq => (congrArg Prod.fst (Option.some.inj heq)).symm
  rw [write] at h
  split at h
  · refine .inl ?_
    split at h
    · exact hdone h
    · split_ifs at h
      · obtain ⟨left, -, h⟩ := Option.bind_eq_some_iff.mp h
        split_ifs at h
        · exact hdone h
        · exact hdone h
      · exact hdone h
  next u hu =>
    split_ifs at h
    · obtain ⟨left, -, h⟩ := Option.bind_eq_some_iff.mp h
      split_ifs at h
      · obtain ⟨end_, -, h⟩ := Option.bind_eq_some_iff.mp h
        split_ifs at h
        · obtain ⟨skip, -, h⟩ := Option.bind_eq_some_iff.mp h
          obtain ⟨⟨file, written⟩, -, h⟩ := Option.bind_eq_some_iff.mp h
          refine .inr ⟨file, ?_⟩
          dsimp only at h
          have htaken : ∀ {s : FileUploadStore} {n : ℕ},
              some (s, Except.ok n) = some (store', result) →
              (store.uploads.get? id).isSome ∧ ∃ received, result = .ok received := fun heq =>
            ⟨by rw [hu]; rfl, _, (congrArg Prod.snd (Option.some.inj heq)).symm⟩
          split_ifs at h
          · exact .inr ⟨_, htaken h, .inr (hdone h)⟩
          · exact .inr ⟨_, htaken h, .inl (hdone h)⟩
          · exact .inl (hdone h)
        · exact .inl (hdone h)
      · exact .inl (hdone h)
    · exact .inl (hdone h)

theorem spared_write {offset : ℕ} {data : List UInt8} {result : Except Code ℕ}
    (h : store.write world id' offset data = some (store', result)) (hne : id' ≠ id) :
    Spared store store' id := by
  rcases write_cases h with rfl | ⟨file, rfl | ⟨u, -, rfl | rfl⟩⟩
  · exact Spared.refl _ id
  · have hdisk :
        Spared store { store with disk := Function.update store.disk id' (some file) } id :=
      .of_finished ⟨rfl, fun _ => Function.update_of_ne hne.symm _ _⟩ rfl rfl
    exact hdisk.trans (spared_cancel _ world hne)
  · exact spared_insert store hne u (some file)
  · exact (spared_insert store hne u (some file)).trans (spared_finish _ hne)

/-- So it is with the upload's own. -/
theorem Tidy.write (ht : store.Tidy id) {offset : ℕ} {data : List UInt8} {result : Except Code ℕ}
    (h : store.write world id offset data = some (store', result)) : store'.Tidy id := by
  have hinsert : ∀ (u : Upload) (disk : ℕ → Option (List UInt8)), (store.uploads.get? id).isSome →
      Tidy { store with uploads := store.uploads.insert id u, disk } id := fun u disk hsome =>
    ht.of_finished rfl rfl fun _ => hsome
  rcases write_cases h with rfl | ⟨file, rfl | ⟨u, ⟨hsome, -⟩, rfl | rfl⟩⟩
  · exact ht
  · have hdisk : Tidy { store with disk := Function.update store.disk id (some file) } id :=
      ht.of_finished rfl rfl fun hsome => hsome
    exact hdisk.cancel world id
  · exact hinsert u _ hsome
  · exact (hinsert u _ hsome).finish id

/-! ## Requests about others -/

theorem spared_uploadFile {safeName : String → String} {message : Message} {reply : Reply}
    (h : store.uploadFile safeName world message = some (store', reply))
    (hid : message.upload ≠ some id) (hdrawn : id ∉ world.drawn) : Spared store store' id := by
  have hdone : ∀ {s : FileUploadStore} {r : Reply}, some (s, r) = some (store', reply) →
      Spared store s id → Spared store store' id := fun heq hs => by
    obtain rfl := congrArg Prod.fst (Option.some.inj heq)
    exact hs
  rw [uploadFile] at h
  split at h
  next name _ =>
    split at h
    · exact hdone h (Spared.refl store id)
    next size _ =>
      split_ifs at h
      · exact hdone h (Spared.refl store id)
      · have hbegin : Spared store (store.begin safeName world name size message.upload).1 id := by
          rw [begin]
          split
          · exact Spared.refl store id
          · have hcreated := created_create store world (safeName name) size message.upload
            generalize store.create world (safeName name) size message.upload = made at hcreated
            cases hcreated with
            | refused _ hsame =>
              rcases hsame with rfl | rfl
              · exact Spared.refl _ id
              · exact spared_sweep store world id
            | @entered new _ _ hnew _ =>
              have hne : new ≠ id := by
                rintro rfl
                rcases hnew with heq | ⟨-, hmem⟩
                · exact hid heq
                · exact hdrawn hmem
              exact (spared_sweep store world id).trans (spared_enter _ world hne _ _ _)
        split at h
        next hresult =>
          rw [hresult] at hbegin
          exact hdone h hbegin
        next hresult =>
          rw [hresult] at hbegin
          exact hdone h hbegin
  · split at h
    · exact hdone h (Spared.refl store id)
    next id' hupload =>
      have hne : id' ≠ id := by
        rintro rfl
        exact hid hupload
      split_ifs at h
      · exact hdone h (spared_cancel store world hne)
      · split at h
        · exact hdone h (Spared.refl store id)
        · exact hdone h (Spared.refl store id)
      · split at h
        · split_ifs at h
          · obtain ⟨⟨store₁, result⟩, hwrite, h⟩ := Option.bind_eq_some_iff.mp h
            cases result with
            | ok _ => exact hdone h (spared_write hwrite hne)
            | error _ => exact hdone h (spared_write hwrite hne)
          · exact hdone h (Spared.refl store id)
        · exact hdone h (Spared.refl store id)

end FileUploadStore

namespace DaemonFileUpload

variable (safeName : String → String) (c : FileCopy)

/-! ## The client's own -/

/-- Where the copy comes to be. -/
def target : String :=
  c.root ++ "/" ++ String.ofList (Nat.toDigits 16 c.id) ++ "/" ++ safeName c.name

/-- What the host remembers of the copy once it is whole. -/
def whole : Finished where
  size := c.content.length
  path := target safeName c
  name := safeName c.name

/-- The host has the file. -/
def IsWhole (store : FileUploadStore) : Prop :=
  store.finished.get? c.id = some (whole safeName c) ∧ store.disk c.id = some c.content

/-- What the host has of the copy: its first bytes when all that was sent is the file's (`G`), and
when it says it has all of them, it once did (`W`). -/
structure Hosts (G W : Prop) (store : FileUploadStore) : Prop where
  tidy : store.Tidy c.id
  upload : ∀ u, store.uploads.get? c.id = some u →
    (u.size = c.content.length ∧ u.path = target safeName c ∧ u.name = safeName c.name) ∧
      Holds G store c.content c.id u
  finished : ∀ done, store.finished.get? c.id = some done → done = whole safeName c ∧ (G → W)

/-- What an answer may say. -/
structure Tells (G W : Prop) (reply : FileUploadStore.Reply) : Prop where
  path : ∀ path ∈ reply.path, path = target safeName c ∧ (c.content.length = 0 → G → W)
  offset : ∀ offset ∈ reply.offset, c.content.length ≤ offset → G → W

/-- What the client asks of the host. -/
inductive Request (G : Prop) : Message → Prop
  | begin : Request G (beginRequest c)
  | ask : Request G (askRequest c)
  | part {offset : ℕ} {data : List UInt8} (hshort : data.length ≤ uploadChunkByteCount)
      (hfits : offset + data.length ≤ c.content.length) (hpart : G → IsPart c.content offset data) :
      Request G (partRequest c offset data)
  | cancel : Request G (cancelRequest c)

/-- Where a request's bytes begin. -/
def start (message : Message) : ℕ := message.offset.getD 0

/-- Where they end. -/
def edge (message : Message) : ℕ := start message + (message.data.join.getD []).length

/-- What becomes of a request. -/
structure Serves (G W : Prop) (store : FileUploadStore) (world : World) (message : Message)
    (store' : FileUploadStore) (reply : FileUploadStore.Reply) : Prop where
  hosts : Hosts safeName c G (W ∨ IsWhole safeName c store') store'
  tells : Tells safeName c G (W ∨ IsWhole safeName c store') reply
  /-- What is taken is known from then on. -/
  known : message.cancel = false → reply.code = .success →
    ∃ r, store'.received c.id = some r ∧ ∃ o ∈ reply.offset, o ≤ r
  /-- While the upload is known it grows, and what leaves no hole is taken. -/
  grows : ∀ r r', store.received c.id = some r → store'.received c.id = some r' → r ≤ r' ∧
    (message.cancel = false → start message ≤ r → reply.code = .success ∧ edge message ≤ r' ∧
      (message.fileName = none → reply.offset = some r'))
  /-- Nothing but the disk makes the host give it up. -/
  keeps : message.cancel = false → PwriteOutcome.failed ∉ world.pwrites →
    (store.received c.id).isSome → (store'.received c.id).isSome

variable {safeName} {c} {G W : Prop} {store store' : FileUploadStore}

theorem Hosts.mono {G' W' : Prop} (h : Hosts safeName c G W store) (hG : G' → G)
    (hW : G' → W → W') :
    Hosts safeName c G' W' store where
  tidy := h.tidy
  upload u hu := by
    obtain ⟨hsame, hheld⟩ := h.upload u hu
    obtain ⟨bytes, hdisk, hlength, hbytes⟩ := hheld.content
    exact ⟨hsame, hheld.bound, hheld.short, bytes, hdisk, hlength, fun hg => hbytes (hG hg)⟩
  finished done hdone :=
    have hold := h.finished done hdone
    ⟨hold.1, fun hg => hW hg (hold.2 (hG hg))⟩

theorem Tells.mono {G' W' : Prop} {reply : FileUploadStore.Reply} (h : Tells safeName c G W reply)
    (hG : G' → G) (hW : G' → W → W') : Tells safeName c G' W' reply :=
  ⟨fun path hpath =>
    ⟨(h.path path hpath).1, fun hzero hg => hW hg ((h.path path hpath).2 hzero (hG hg))⟩,
    fun offset hoffset hall hg => hW hg (h.offset offset hoffset hall (hG hg))⟩

theorem Tells.silent {reply : FileUploadStore.Reply} (hpath : reply.path = none)
    (hoffset : reply.offset = none) : Tells safeName c G W reply where
  path path hmem := by
    rw [hpath] at hmem
    cases hmem
  offset offset hmem := by
    rw [hoffset] at hmem
    cases hmem

theorem Request.mono {G' : Prop} {message : Message} (h : Request c G message) (hG : G' → G) :
    Request c G' message := by
  cases h with
  | begin => exact .begin
  | ask => exact .ask
  | part hshort hfits hpart => exact .part hshort hfits fun hg => hpart (hG hg)
  | cancel => exact .cancel

/-- Another's request leaves the copy as it is. -/
theorem Hosts.spared (h : Hosts safeName c G W store) (hspared : Spared store store' c.id) :
    Hosts safeName c G W store' where
  tidy := hspared.tidy h.tidy
  upload u hu := by
    have hold : store.uploads.get? c.id = some u := hspared.untouched.1.symm.trans hu
    obtain ⟨hsame, hheld⟩ := h.upload u hold
    exact ⟨hsame, hheld.of_disk (hspared.untouched.2 (by rw [hold]; rfl))⟩
  finished done hdone := h.finished done (hspared.finished done hdone)

theorem Hosts.cancel (h : Hosts safeName c G W store) (world : World) :
    Hosts safeName c G W (store.cancel world c.id) where
  tidy := h.tidy.cancel world c.id
  upload u hu := by
    rw [get?_cancel_self] at hu
    cases hu
  finished done hdone := by
    rw [(finished_cancel store world c.id).1] at hdone
    exact h.finished done hdone

theorem Hosts.expireIdle (h : Hosts safeName c G W store) (world : World) :
    Hosts safeName c G W (store.expireIdle world) := by
  obtain ⟨hfinished, horder⟩ := finished_expireIdle store world
  rcases expireIdle_cases store world c.id with huntouched | ⟨hnone, -⟩
  · exact h.spared (.of_finished huntouched hfinished horder)
  · refine ⟨h.tidy.of_finished hfinished horder fun hsome => ?_, fun u hu => ?_,
      fun done hdone => ?_⟩
    · rw [hnone] at hsome
      cases hsome
    · rw [hnone] at hu
      cases hu
    · rw [hfinished] at hdone
      exact h.finished done hdone

theorem received_of_uploads {u : Upload} {id : ℕ} (hu : store.uploads.get? id = some u) :
    store.received id = some u.received := by
  rw [FileUploadStore.received, hu]
  rfl

theorem received_of_finished {done : Finished} {id : ℕ} (hu : store.uploads.get? id = none)
    (hdone : store.finished.get? id = some done) : store.received id = some done.size := by
  rw [FileUploadStore.received, hu, hdone]
  rfl

theorem received_eq_none {id : ℕ} (h : store.received id = none) :
    store.uploads.get? id = none ∧ store.finished.get? id = none := by
  rw [FileUploadStore.received] at h
  simpa using h

/-- What the host says it has. -/
theorem Hosts.tells_received (h : Hosts safeName c G W store) {r : ℕ}
    (hr : store.received c.id = some r) :
    c.content.length ≤ r → G → W := by
  intro hall
  cases hu : store.uploads.get? c.id with
  | some u =>
    obtain ⟨⟨hsize, -⟩, hheld⟩ := h.upload u hu
    have hshort := hheld.short
    rw [received_of_uploads hu, Option.some_inj] at hr
    omega
  | none =>
    cases hdone : store.finished.get? c.id with
    | none =>
      rw [FileUploadStore.received, hu, hdone] at hr
      cases hr
    | some done => exact (h.finished done hdone).2

theorem Hosts.ask (h : Hosts safeName c G W store) (world : World) : ∃ store' reply,
    store.uploadFile safeName world (askRequest c) = some (store', reply) ∧
      Serves safeName c G W store world (askRequest c) store' reply := by
  have hosts : Hosts safeName c G (W ∨ IsWhole safeName c store) store := h.mono id fun _ => .inl
  cases hr : store.received c.id with
  | none =>
    refine ⟨store, { code := .unknownSession }, by simp [uploadFile, askRequest, hr], hosts,
      .silent rfl rfl, fun _ hcode => (by cases hcode), fun r r' hold _ => ?_, fun _ _ => id⟩
    cases hr.symm.trans hold
  | some r =>
    refine ⟨store, { code := .success, offset := r }, by simp [uploadFile, askRequest, hr], hosts,
      ⟨?_, ?_⟩, fun _ _ => ⟨r, hr, r, rfl, le_rfl⟩, fun r₁ r₂ hold hnew => ?_, fun _ _ => id⟩
    · rintro _ ⟨⟩
    · rintro _ ⟨⟩ hall hg
      exact .inl (h.tells_received hr hall hg)
    · cases hr.symm.trans hold
      cases hr.symm.trans hnew
      exact ⟨le_rfl, fun _ _ => ⟨rfl, Nat.zero_le r, fun _ => rfl⟩⟩

theorem Hosts.cancelled (h : Hosts safeName c G W store) (world : World) : ∃ store' reply,
    store.uploadFile safeName world (cancelRequest c) = some (store', reply) ∧
      Serves safeName c G W store world (cancelRequest c) store' reply := by
  refine ⟨store.cancel world c.id, { code := .success }, by simp [uploadFile, cancelRequest],
    (h.cancel world).mono id fun _ => .inl, .silent rfl rfl, fun hcancel => (by cases hcancel),
    fun r r' hr hr' => ⟨?_, fun hcancel => (by cases hcancel)⟩, fun hcancel => (by cases hcancel)⟩
  cases hu : store.uploads.get? c.id with
  | some u =>
    have hnone := h.tidy.apart (by rw [hu]; rfl)
    rw [FileUploadStore.received, get?_cancel_self, (finished_cancel store world c.id).1,
      hnone] at hr'
    cases hr'
  | none =>
    rw [FileUploadStore.received, hu] at hr
    rw [FileUploadStore.received, get?_cancel_self, (finished_cancel store world c.id).1] at hr'
    exact (Option.some.inj (hr.symm.trans hr')).le

/-- A part of what the host knows, whole or not. -/
theorem uploadFile_part (store : FileUploadStore) (world : World) {offset : ℕ} {data : List UInt8}
    (hshort : data.length ≤ uploadChunkByteCount) {result : Except Code ℕ}
    (hwrite : store.write world c.id offset data = some (store', result)) :
    store.uploadFile safeName world (partRequest c offset data) = some (store', {
      code := match result with
        | .ok _ => .success
        | .error code => code
      offset := store'.received c.id }) := by
  have hchunk : uploadChunkByteCount * 2 ≤ FileUploadStore.maximumMessageDataByteCount := by decide
  have hinput : inputData (partRequest c offset data) = some data :=
    (Option.filter_some ..).trans (if_pos (decide_eq_true (by omega)))
  have hhalf : data.length ≤ uploadChunkByteCount * 2 := by omega
  have hnotCancel : ¬ (partRequest c offset data).cancel = true := nofun
  simp only [uploadFile, partRequest, Option.isNone_some, Bool.false_eq_true, if_false] at *
  rw [hinput]
  simp only [if_pos hhalf, hwrite, Option.bind_eq_bind, Option.bind_some, Option.pure_def]
  cases result <;> rfl

theorem Hosts.part_unknown (h : Hosts safeName c G W store) (world : World) {offset : ℕ}
    {data : List UInt8} (hshort : data.length ≤ uploadChunkByteCount)
    (hfits : offset + data.length ≤ c.content.length) (hu : store.uploads.get? c.id = none) :
    ∃ store' reply, store.uploadFile safeName world (partRequest c offset data) =
      some (store', reply) ∧
      Serves safeName c G W store world (partRequest c offset data) store' reply := by
  have hosts : Hosts safeName c G (W ∨ IsWhole safeName c store) store := h.mono id fun _ => .inl
  cases hdone : store.finished.get? c.id with
  | none =>
    have hr : store.received c.id = none := by
      rw [FileUploadStore.received, hu, hdone]
      rfl
    have hwrite : store.write world c.id offset data = some (store, .error .unknownSession) := by
      simp only [write, hu, hdone]
    refine ⟨store, _, uploadFile_part store world hshort hwrite, hosts, .silent rfl hr,
      fun _ hcode => (by cases hcode), fun r r' hold _ => ?_, fun _ _ => id⟩
    cases hr.symm.trans hold
  | some done =>
    obtain ⟨rfl, hwas⟩ := h.finished done hdone
    have hr := received_of_finished hu hdone
    have hwrite : store.write world c.id offset data = some (store, .ok c.content.length) := by
      have hoff : offset ≤ (whole safeName c).size := (Nat.le_add_right _ _).trans hfits
      have hleft : subtracting (whole safeName c).size offset = some (c.content.length - offset) :=
        if_pos hoff
      have hlen : data.length ≤ c.content.length - offset := by omega
      simp only [write, hu, hdone, if_pos hoff, hleft, Option.bind_eq_bind, Option.bind_some,
        if_pos hlen]
      rfl
    refine ⟨store, _, uploadFile_part store world hshort hwrite, hosts, ⟨?_, ?_⟩,
      fun _ _ => ⟨_, hr, _, hr, le_rfl⟩, fun r r' hold hnew => ?_, fun _ _ => id⟩
    · rintro _ ⟨⟩
    · intro o ho hall hg
      exact .inl (hwas hg)
    · cases hr.symm.trans hold
      cases hr.symm.trans hnew
      exact ⟨le_rfl, fun _ _ => ⟨rfl, hfits, fun _ => hr⟩⟩

/-- What a part comes to, when the host knows the upload. -/
theorem Hosts.part_known (h : Hosts safeName c G W store) {world : World} {offset : ℕ}
    {data : List UInt8} (hshort : data.length ≤ uploadChunkByteCount)
    (hfits : offset + data.length ≤ c.content.length) (hpart : G → IsPart c.content offset data)
    {u : Upload} (hu : store.uploads.get? c.id = some u) :
    ∃ store' reply, store.uploadFile safeName world (partRequest c offset data) =
      some (store', reply) ∧
      Serves safeName c G W store world (partRequest c offset data) store' reply := by
  obtain ⟨⟨hsize, hpath, hname⟩, hheld⟩ := h.upload u hu
  obtain ⟨store', result, hwrite, hwritten, -⟩ := write_spec hu hheld world offset data hpart
  have htidy := h.tidy.write hwrite
  have hunfinished := h.tidy.apart (by rw [hu]; rfl)
  have hr := received_of_uploads hu
  have hshorter := hheld.short
  refine ⟨store', _, uploadFile_part store world hshort hwrite, ?_⟩
  cases hwritten with
  | refused hhole =>
    refine ⟨h.mono id fun _ => .inl, ⟨nofun, ?_⟩, fun _ hcode => (by cases hcode),
      fun r r' hold hnew => ?_, fun _ _ => id⟩
    · rw [hr]
      rintro _ ⟨⟩ hall
      omega
    · cases hr.symm.trans hold
      cases hr.symm.trans hnew
      exact ⟨le_rfl, fun _ hstart => absurd ⟨hstart, hsize ▸ hfits⟩ hhole⟩
  | known hend hstart =>
    refine ⟨h.mono id fun _ => .inl, ⟨nofun, ?_⟩, fun _ _ => ⟨_, hr, _, hr, le_rfl⟩,
      fun r r' hold hnew => ?_, fun _ _ => id⟩
    · rw [hr]
      rintro _ ⟨⟩ hall
      omega
    · cases hr.symm.trans hold
      cases hr.symm.trans hnew
      exact ⟨le_rfl, fun _ _ => ⟨rfl, hend, fun _ => hr⟩⟩
  | grown hnew hmore hget hdisk =>
    have hr' := received_of_uploads hget
    have hnone := htidy.apart (by rw [hget]; rfl)
    refine ⟨⟨htidy, fun u' hu' => ?_, fun done hdone => ?_⟩, ⟨nofun, ?_⟩,
      fun _ _ => ⟨_, hr', _, hr', le_rfl⟩, fun r r' hold hnow => ?_, fun _ _ _ => by rw [hr']; rfl⟩
    · cases hget.symm.trans hu'
      obtain ⟨bytes, hbytes, hlength, hfirst⟩ := hdisk
      exact ⟨⟨hsize, hpath, hname⟩, hheld.bound, hmore, bytes, hbytes, hlength,
        fun hg => ⟨hsize, hfirst hg⟩⟩
    · cases hnone.symm.trans hdone
    · rw [hr']
      rintro _ ⟨⟩ hall
      dsimp only at hall
      omega
    · cases hr.symm.trans hold
      cases hr'.symm.trans hnow
      exact ⟨hnew.le, fun _ _ => ⟨rfl, le_rfl, fun _ => hr'⟩⟩
  | finished hnew hend hget hfin hdisk =>
    have hdone : store'.finished.get? c.id = some (whole safeName c) := by
      rcases hfin with hfin | hhead
      · rw [hfin, hsize, hpath, hname]
        rfl
      · exact absurd hhead (h.tidy.head_ne hunfinished)
    obtain ⟨bytes, hbytes, -, hall⟩ := hdisk
    have hwhole : G → W ∨ IsWhole safeName c store' := fun hg =>
      .inr ⟨hdone, by rw [hbytes, hall hg]⟩
    have hr' := received_of_finished hget hdone
    refine ⟨⟨htidy, fun u' hu' => ?_, fun done hd => ?_⟩, ⟨nofun, fun _ _ _ => hwhole⟩,
      fun _ _ => ⟨_, hr', _, hr', le_rfl⟩, fun r r' hold hnow => ?_, fun _ _ _ => by rw [hr']; rfl⟩
    · cases hget.symm.trans hu'
    · cases hdone.symm.trans hd
      exact ⟨rfl, hwhole⟩
    · cases hr.symm.trans hold
      cases hr'.symm.trans hnow
      refine ⟨?_, fun _ _ => ⟨rfl, hfits, fun _ => hr'⟩⟩
      change u.received ≤ c.content.length
      omega
  | failed hmem hget =>
    have hnone : store'.finished.get? c.id = none := by
      rcases write_cases hwrite with rfl | ⟨file, rfl | ⟨u', ⟨-, _, hok⟩, -⟩⟩
      · exact hunfinished
      · rw [(finished_cancel _ world c.id).1]
        exact hunfinished
      · cases hok
    have hr' : store'.received c.id = none := by
      rw [FileUploadStore.received, hget, hnone]
      rfl
    refine ⟨⟨htidy, fun u' hu' => ?_, fun done hdone => ?_⟩, ⟨nofun, ?_⟩,
      fun _ hcode => (by cases hcode), fun r r' _ hnow => ?_, fun _ hnot => absurd hmem hnot⟩
    · cases hget.symm.trans hu'
    · cases hnone.symm.trans hdone
    · rw [hr']
      exact nofun
    · cases hr'.symm.trans hnow

theorem uploadFile_begin (store : FileUploadStore) (world : World) :
    store.uploadFile safeName world (beginRequest c) =
      some (match store.begin safeName world c.name c.content.length (some c.id) with
        | (store, .ok begun) =>
          (store, { code := .success, upload := begun.id, path := begun.path, offset := some 0 })
        | (store, .error failure) =>
            (store, { code := failure.1, errorMessage := failure.2 })) := by
  have hid : ¬ (some c.id = some 0) := fun h => c.id_ne_zero (Option.some.inj h)
  simp only [uploadFile, beginRequest]
  refine (if_neg hid).trans ?_
  rcases store.begin safeName world c.name c.content.length (some c.id) with
    ⟨store', failure | begun⟩
  · rfl
  · rfl

/-- A begin that the host takes for the one it had. -/
theorem Hosts.begin_again (h : Hosts safeName c G W store) (world : World) {r : ℕ}
    (hr : store.received c.id = some r) :
    store.begin safeName world c.name c.content.length (some c.id)
      = (store, .ok ⟨c.id, target safeName c⟩) := by
  cases hu : store.uploads.get? c.id with
  | some u =>
    obtain ⟨⟨hsize, hpath, hname⟩, -⟩ := h.upload u hu
    have hagain := Uploading.begin_again hu world hname
    rwa [hsize, hpath] at hagain
  | none =>
    cases hdone : store.finished.get? c.id with
    | none =>
      rw [FileUploadStore.received, hu, hdone] at hr
      cases hr
    | some done =>
      obtain ⟨rfl, -⟩ := h.finished done hdone
      exact Uploading.begin_finished hu hdone world rfl

/-- The host enters the upload. -/
theorem Hosts.entered (h : Hosts safeName c G W store) (world : World)
    (hdone : store.finished.get? c.id = none) (hsize : c.content.length ≤ maximumUploadByteCount)
    (henter : (store.sweep world).enter world c.id (target safeName c) (safeName c.name)
      c.content.length
      = store') :
    Hosts safeName c G (W ∨ IsWhole safeName c store') store' ∧ store'.received c.id = some 0 := by
  have hget := get?_enter (store.sweep world) world c.id (target safeName c) (safeName c.name)
    c.content.length
  have hdisk := disk_enter (store.sweep world) world c.id (target safeName c) (safeName c.name)
    c.content.length
  rw [henter] at hget hdisk
  obtain ⟨inserted, hinserted⟩ : ∃ inserted, inserted = { store.sweep world with
      uploads := (store.sweep world).uploads.insert c.id
        ⟨target safeName c, safeName c.name, c.content.length, 0, world.now⟩
      disk := Function.update (store.sweep world).disk c.id (some []) } := ⟨_, rfl⟩
  have htidy : inserted.Tidy c.id := by
    subst hinserted
    exact ⟨fun _ => hdone, h.tidy.count⟩
  have hunfinished : inserted.finished.get? c.id = none := by
    subst hinserted
    exact hdone
  rw [enter, ← hinserted] at henter
  split_ifs at henter with hzero
  · have hnil : c.content = [] := List.length_eq_zero_iff.mp hzero
    have hinsertedGet : inserted.uploads.get? c.id
        = some ⟨target safeName c, safeName c.name, c.content.length, 0, world.now⟩ := by
      subst hinserted
      exact Dict.get?_insert_self _ _ _
    have hfinished : store'.finished.get? c.id = some (whole safeName c) := by
      rcases finished_finish hinsertedGet with hfin | hhead
      · rw [← henter]
        exact hfin
      · exact absurd hhead (htidy.head_ne hunfinished)
    rw [if_pos hzero] at hget
    refine ⟨⟨henter ▸ htidy.finish c.id, fun u hu' => ?_, fun done hd => ?_⟩, ?_⟩
    · cases hget.symm.trans hu'
    · cases hfinished.symm.trans hd
      exact ⟨rfl, fun _ => .inr ⟨hfinished, by rw [hdisk, hnil]⟩⟩
    · rw [received_of_finished hget hfinished]
      exact congrArg some hzero
  · rw [if_neg hzero] at hget
    refine ⟨⟨henter ▸ htidy, fun u hu' => ?_, fun done hd => ?_⟩, received_of_uploads hget⟩
    · cases hget.symm.trans hu'
      exact ⟨⟨rfl, rfl, rfl⟩, hsize, Nat.pos_of_ne_zero hzero, [], hdisk, rfl, fun _ => ⟨rfl, rfl⟩⟩
    · rw [← henter] at hd
      cases hunfinished.symm.trans hd

theorem Hosts.begin (h : Hosts safeName c G W store) {world : World} (hnames : Names c world) :
    ∃ store' reply, store.uploadFile safeName world (beginRequest c) = some (store', reply) ∧
      Serves safeName c G W store world (beginRequest c) store' reply := by
  rw [uploadFile_begin]
  cases hr : store.received c.id with
  | some r =>
    rw [h.begin_again world hr]
    refine ⟨store, _, rfl, h.mono id fun _ => .inl, ⟨?_, ?_⟩,
      fun _ _ => ⟨r, hr, 0, rfl, Nat.zero_le r⟩, fun r₁ r₂ hold hnew => ?_, fun _ _ => id⟩
    · rintro _ ⟨⟩
      exact ⟨rfl, fun hzero hg => .inl (h.tells_received hr (hzero.le.trans (Nat.zero_le r)) hg)⟩
    · rintro _ ⟨⟩ hall hg
      exact .inl (h.tells_received hr (hall.trans (Nat.zero_le r)) hg)
    · cases hr.symm.trans hold
      cases hr.symm.trans hnew
      exact ⟨le_rfl, fun _ _ => ⟨rfl, Nat.zero_le r, fun hname => (by cases hname)⟩⟩
  | none =>
    obtain ⟨hu, hdone⟩ := received_eq_none hr
    have hagain : store.beginAgain (safeName c.name) c.content.length (some c.id) = none := by
      rw [beginAgain, Option.bind_eq_bind, Option.bind_some, hu]
      dsimp only
      rw [hdone]
      rfl
    have hbegin : store.begin safeName world c.name c.content.length (some c.id)
        = store.create world (safeName c.name) c.content.length (some c.id) := by
      rw [FileUploadStore.begin, hagain]
    have hcreated := created_create store world (safeName c.name) c.content.length (some c.id)
    rw [hbegin]
    generalize store.create world (safeName c.name) c.content.length (some c.id) = made at hcreated
    cases hcreated with
    | @refused store' _ hcode hsame =>
      have hspared : Spared store store' c.id := by
        rcases hsame with rfl | rfl
        · exact Spared.refl _ c.id
        · exact spared_sweep store world c.id
      exact ⟨store', _, rfl, (h.spared hspared).mono id fun _ => .inl, .silent rfl rfl,
        fun _ hsuccess => absurd hsuccess hcode, fun r r' hold _ => (by cases hr.symm.trans hold),
        fun _ _ hsome => (by rw [hr] at hsome; cases hsome)⟩
    | @entered id root hroot hid hsize =>
      have hown : id = c.id := by
        rcases hid with heq | ⟨heq, -⟩
        · exact (Option.some.inj heq).symm
        · cases heq
      subst hown
      obtain rfl : root = c.root := hnames root (by rw [hroot]; rfl)
      obtain ⟨hosts, hreceived⟩ := h.entered world hdone hsize rfl
      refine ⟨_, _, rfl, hosts, ⟨?_, ?_⟩, fun _ _ => ⟨0, hreceived, 0, rfl, le_rfl⟩,
        fun r r' hold _ => (by cases hr.symm.trans hold), fun _ _ hsome => ?_⟩
      · rintro _ ⟨⟩
        exact ⟨rfl, fun hzero hg => hosts.tells_received hreceived hzero.le hg⟩
      · rintro _ ⟨⟩ hall hg
        exact hosts.tells_received hreceived hall hg
      · rw [hr] at hsome
        cases hsome

/-- **What the client asks is answered**, whatever the host has of the file and whatever its disk
does. -/
theorem Hosts.request (h : Hosts safeName c G W store) {world : World} (hnames : Names c world)
    {message : Message} (hmessage : Request c G message) :
    ∃ store' reply, store.uploadFile safeName world message = some (store', reply) ∧
      Serves safeName c G W store world message store' reply := by
  cases hmessage with
  | begin => exact h.begin hnames
  | ask => exact h.ask world
  | part hshort hfits hpart =>
    cases hu : store.uploads.get? c.id with
    | none => exact h.part_unknown world hshort hfits hu
    | some u => exact h.part_known hshort hfits hpart hu
  | cancel => exact h.cancelled world

end DaemonFileUpload
