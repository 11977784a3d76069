import IGhostVT.Relay.DropListing
import IGhostVT.Relay.DropReads

/-!
# Relay/DropArrival — a dropped file arrives as it was sent

The transfers with the rows the relay lists.  A committed file is the stream of the file that was
put, its row has the checksum that a download is checked against, and neither changes while it is
listed (`Sealed`).  A get reads it from whatever offset it is asked for, whatever else goes on.
-/

open Relay

namespace DropZone

variable {z z' : DropZone} {id conn : ℕ} {task : DropTask} {left : DropFile → Prop} {δ : ℤ}

/-! ## Which files are whole

A file is whole from its commit on, and by nothing else. -/

/-- No file is whole that was not. -/
def FinishesNone (z z' : DropZone) : Prop := ∀ id f', z'.files.get? id = some f' →
  f'.complete = true → ∃ f, z.files.get? id = some f ∧ f.complete = true

/-- A quiet change finishes nothing. -/
theorem Quiet.finishesNone (h : Quiet z z') : FinishesNone z z' := fun id f' hget hwhole => by
  obtain ⟨f, hf, -, hcomplete⟩ := h.files id f' hget
  exact ⟨f, hf, hcomplete ▸ hwhole⟩

theorem finishesNone_of_files (h : z'.files = z.files) : FinishesNone z z' :=
  fun _ f' hget hwhole => ⟨f', h ▸ hget, hwhole⟩

/-- A session that moves on finishes no file but its own. -/
theorem Moves.finishesNone (h : Moves z z' conn id task left)
    (hleft : ∀ f', left f' → f'.complete = true →
      ∃ f, z.files.get? id = some f ∧ f.complete = true) : FinishesNone z z' := by
  intro id' f' hget hwhole
  by_cases heq : id' = id
  · subst heq
    exact hleft f' (h.file f' hget) hwhole
  · obtain ⟨f, hf, -, hcomplete⟩ := h.files id' f' heq hget
    exact ⟨f, hf, hcomplete ▸ hwhole⟩

theorem Moves.finishesNone_of_kept (h : Moves z z' conn id task (z.Kept id δ)) :
    FinishesNone z z' := h.finishesNone fun f' hkept hwhole => by
  obtain ⟨f, hf, -, hcomplete⟩ := hkept
  exact ⟨f, hf, hcomplete ▸ hwhole⟩

/-- An action of one session, unless it is the commit. -/
theorem finishesNone_act {d : DropSession} (hget : z.sessions.get? conn = some d) (action : Action)
    (hcommit : action ≠ .commit) : FinishesNone z (z.act conn d action d.task) := by
  have hsame : FinishesNone z z := finishesNone_of_files rfl
  cases htask : d.task with
  | ready =>
    have hcopying : ∀ id n, d.task ≠ .copying id n := fun _ _ heq => by
      rw [htask] at heq
      cases heq
    cases action with
    | put valid hasRoom created =>
      rw [act]
      split_ifs
      · rcases put_cases conn d with h | h
        · exact h.finishesNone
        · exact h.finishesNone fun f' hnew hwhole => by
            rw [hnew.2] at hwhole
            cases hwhole
      · exact (Quiet.refuse z conn _).finishesNone
      · exact (Quiet.refuse z conn _).finishesNone
    | resume id =>
      rcases resume_cases conn d id with h | ⟨-, -, -, h⟩
      exacts [h.finishesNone, h.finishesNone_of_kept]
    | get id offset =>
      have hready : z.taskOf conn = some .ready := taskOf_eq_some.mpr ⟨d, hget, htask⟩
      have h := DropTransfers.quiet_get (t := { zone := z }) hready id offset
      rw [step, hget] at h
      dsimp only at h
      rw [htask] at h
      exact h.finishesNone
    | remove id => exact (Quiet.remove z conn id).finishesNone
    | endSession now => exact (Quiet.endSession hget hcopying now).finishesNone
    | _ => exact hsame
  | reopening id =>
    cases action with
    | reopened ok =>
      rw [act]
      split
      exacts [finishesNone_of_files rfl, finishesNone_of_files rfl]
    | _ => exact hsame
  | uploading id =>
    cases action with
    | reserve n hasRoom =>
      rcases reserve_cases hget htask n hasRoom with h | h
      exacts [h.finishesNone, h.finishesNone_of_kept]
    | commit => exact absurd rfl hcommit
    | abandon => exact finishesNone_of_files rfl
    | _ => exact hsame
  | copying id n =>
    cases action with
    | copied written =>
      by_cases hshort : (written : ℤ) < n
      · exact (copied_short hshort).finishesNone_of_kept
      · exact (copied_whole hshort).finishesNone_of_kept
    | _ => exact hsame
  | oversized id =>
    cases action with
    | removeOversized =>
      rw [act]
      split
      · exact finishesNone_of_files rfl
      next f hfile => exact (Quiet.removeLocked z id f).finishesNone
    | _ => exact hsame
  | returning id goesOn =>
    cases action with
    | stopWriting => exact (Quiet.stopWriting z id).finishesNone
    | _ => exact hsame
  | closing =>
    have hcopying : ∀ id n, d.task ≠ .copying id n := fun _ _ heq => by
      rw [htask] at heq
      cases heq
    cases action with
    | endSession now => exact (Quiet.endSession hget hcopying now).finishesNone
    | _ => exact hsame

/-- **Only a commit finishes a file.** -/
theorem finishesNone_step (z : DropZone) (e : Event)
    (hcommit : ∀ conn, e ≠ .act conn .commit) : FinishesNone z (z.step e) := by
  cases e with
  | admitSession conn => exact (Quiet.admitSession z conn).finishesNone
  | act conn action =>
    rw [step]
    split
    · exact finishesNone_of_files rfl
    next d hget => exact finishesNone_act hget action fun heq => hcommit conn (heq ▸ rfl)
  | expire now => exact (Quiet.expire z now).finishesNone
  | close => exact (Quiet.close z).finishesNone

/-- Every file was there, and is whole only if it was. -/
def Shrinks (z z' : DropZone) : Prop := ∀ id f', z'.files.get? id = some f' →
  ∃ f, z.files.get? id = some f ∧ (f'.complete = true → f.complete = true)

theorem Shrinks.refl (z : DropZone) : Shrinks z z := fun _ f' hget => ⟨f', hget, fun h => h⟩

/-- A file that was there is whole only if it was. -/
theorem FinishesNone.of_there (h : FinishesNone z z') {f' : DropFile}
    (hget : z'.files.get? id = some f') (hthere : (z.files.get? id).isSome) :
    ∃ f, z.files.get? id = some f ∧ (f'.complete = true → f.complete = true) := by
  obtain ⟨f, hf⟩ := Option.isSome_iff_exists.mp hthere
  refine ⟨f, hf, fun hwhole => ?_⟩
  obtain ⟨g, hg, hcomplete⟩ := h id f' hget hwhole
  exact Option.some.inj (hf.symm.trans hg) ▸ hcomplete

/-- But for puts and commits, files only go. -/
theorem shrinks_step (z : DropZone) (e : Event)
    (hput : ∀ conn v r c, e ≠ .act conn (.put v r c))
    (hcommit : ∀ conn, e ≠ .act conn .commit) : Shrinks z (z.step e) :=
  fun id _ hget => (finishesNone_step z e hcommit).of_there hget
    ((z.keeps_step e hput).files id (Option.isSome_of_eq_some hget))

/-- A put finishes nothing, and has one file at most to add. -/
theorem shrinks_put {valid hasRoom created : Bool} (hne : id ≠ z.ids) {f' : DropFile}
    (hget : (z.step (.act conn (.put valid hasRoom created))).files.get? id = some f') :
    ∃ f, z.files.get? id = some f ∧ (f'.complete = true → f.complete = true) := by
  obtain hthere | ⟨hnew, -⟩ := (z.step_put conn valid hasRoom created).2 id
    (Option.isSome_of_eq_some hget)
  · exact (finishesNone_step z _ fun _ h => by cases h).of_there hget hthere
  · exact absurd hnew hne

/-- The new file is not whole. -/
theorem Sound.put_incomplete (h : Sound z) {valid hasRoom created : Bool} {f' : DropFile}
    (hget : (z.step (.act conn (.put valid hasRoom created))).files.get? z.ids = some f') :
    f'.complete = false := by
  refine Bool.eq_false_of_not_eq_true fun hwhole => ?_
  obtain ⟨f, hf, -⟩ := finishesNone_step z _ (fun _ h => by cases h) z.ids f' hget hwhole
  exact absurd (h.holds.made _ f hf) (lt_irrefl _)

/-- A commit finishes the file of its session, and no other. -/
theorem shrinks_commit (hconn : z.taskOf conn = some (.uploading id)) {id' : ℕ} (hne : id' ≠ id)
    {f' : DropFile} (hget : (z.step (.act conn .commit)).files.get? id' = some f') :
    ∃ f, z.files.get? id' = some f ∧ (f'.complete = true → f.complete = true) := by
  obtain ⟨d, hd, htask⟩ := taskOf_eq_some.mp hconn
  have hstep : z.step (.act conn .commit) = z.commit conn d id := by
    rw [step, hd]
    dsimp only
    rw [htask, act]
  rw [hstep] at hget
  rcases commit_cases hd htask with h | h
  · obtain ⟨f, hf, -, hcomplete⟩ := h.files id' f' hget
    exact ⟨f, hf, fun hwhole => hcomplete ▸ hwhole⟩
  · obtain ⟨f, hf, -, hcomplete⟩ := h.files id' f' hne hget
    exact ⟨f, hf, fun hwhole => hcomplete ▸ hwhole⟩

end DropZone

namespace DropListing

variable {s : DropListing} {conn id : ℕ} {sha256 : List Char}

/-- A put that made a file lists it. -/
theorem get?_rows_put {r : PutRequest} {hasRoom created : Bool} (random : Fin 16 → UInt8) (now : ℤ)
    (hmade : ((s.zone.step (.act conn (.put r.isValid hasRoom created))).files.get?
      s.zone.ids).isSome) : (s.put conn r hasRoom created random now).rows.get? s.zone.ids
        = some { id := newDropID random, request := r, created := int64 now } := by
  rw [put]
  dsimp only
  rw [if_pos hmade, Dict.get?_insert_self]

/-- A commit writes the checksum into its own file's row. -/
theorem get?_rows_commit (hvalid : validSHA256 sha256 = true) (hid : uploaded s.zone conn = some id)
    (id' : ℕ) : (s.commit conn sha256).rows.get? id'
      = (s.rows.get? id').map fun row => if id' = id then { row with sha256 } else row := by
  rw [commit, if_pos hvalid]
  dsimp only
  rw [hid]
  dsimp only
  by_cases heq : id' = id
  · subst heq
    cases hrow : s.rows.get? id' with
    | none => simp [hrow]
    | some row => simp
  · have hsame : (s.rows.get? id').map (fun row => if id' = id then { row with sha256 } else row)
        = s.rows.get? id' := by
      simp [heq]
    rw [hsame]
    cases hrow : s.rows.get? id with
    | none => rfl
    | some row => exact Dict.get?_insert_of_ne _ (Ne.symm heq) _

end DropListing

namespace DropTransfers

open DropZone

variable {c : Drop.Codec} {source : ℕ → DropSource} {t : DropTransfers}

/-! ## The zone under the transfers

What the clients permit is a step of the zone, so its files go the same way. -/

/-- What a session's step comes to outside the zone leaves the zone alone. -/
theorem zone_follow (t : DropTransfers) (zone : DropZone) (conn : ℕ) (action : DropZone.Action)
    (task : DropTask) : (t.follow c source zone conn action task).zone = zone := by
  unfold follow
  dsimp only
  split
  · split <;> rfl
  · split
    · rfl
    · split <;> rfl
  · split <;> rfl
  · split <;> rfl
  · split <;> rfl
  · rfl

/-- What the clients permit, the zone does. -/
theorem zone_zoneStep {e : DropZone.Event} (hpermits : permits c source t e = true) :
    (t.zoneStep c source e).zone = t.zone.step e := by
  rw [zoneStep, if_pos hpermits]
  dsimp only
  split
  next conn action =>
    split
    · rfl
    · exact zone_follow t _ conn action _
  next => rfl

theorem shrinks_zoneStep (t : DropTransfers) (e : DropZone.Event)
    (hput : ∀ conn v r c, e ≠ .act conn (.put v r c))
    (hcommit : ∀ conn, e ≠ .act conn .commit) :
    Shrinks t.zone (t.zoneStep c source e).zone := by
  by_cases hpermits : permits c source t e = true
  · rw [zone_zoneStep hpermits]
    exact shrinks_step t.zone e hput hcommit
  · rw [zoneStep, if_neg hpermits]
    exact Shrinks.refl _

/-- Getting a file finishes none. -/
theorem shrinks_fetch (t : DropTransfers) (conn folder id : ℕ) :
    Shrinks t.zone (t.fetch source conn folder id).zone := by
  have hget : ∀ offset : ℤ, Shrinks t.zone (t.zone.step (.act conn (.get id offset))) :=
    fun offset => shrinks_step t.zone _ (fun _ _ _ _ h => by cases h) fun _ h => by cases h
  unfold fetch
  dsimp only
  split
  · split
    · exact hget 0
    · split <;> exact hget _
  · exact Shrinks.refl _

end DropTransfers

/-! ## The program -/

structure DropArrivals where
  transfers : DropTransfers
  rows : Dict ℕ DropRow := ∅

namespace DropArrivals

open DropZone DropTransfers

variable (c : Drop.Codec) (source : ℕ → DropSource)

/-- What the uploader commits a file with. -/
def digest (id : ℕ) : List Char := hexText (c.sha256 (source id).content)

def encodingText : Drop.Encoding → List Char
  | .zstd => "zstd".toList
  | .plain => "none".toList

/-- The `put` of a file, its size and encoding the file's own. -/
def request (id : ℕ) (r : PutRequest) : PutRequest :=
  { r with size := (source id).content.length, encoding := encodingText (source id).encoding }

def listing (s : DropArrivals) : DropListing where
  zone := s.transfers.zone
  rows := s.rows

/-- A put that is listed under the id the relay drew. -/
def put (s : DropArrivals) (conn : ℕ) (r : PutRequest) (hasRoom created : Bool)
    (random : Fin 16 → UInt8) (now : ℤ) : DropArrivals :=
  let id := s.transfers.zone.ids
  let r := request source id r
  let event := DropZone.Event.act conn (.put r.isValid hasRoom created)
  if permits c source s.transfers event ∧ newDropID random = (source id).idText then
    { transfers := s.transfers.zoneStep c source event
      rows := (s.listing.put conn r hasRoom created random now).rows }
  else s

/-- A commit with the file's checksum. -/
def commit (s : DropArrivals) (conn : ℕ) : DropArrivals :=
  match DropListing.uploaded s.transfers.zone conn with
  | none => s
  | some id =>
    let sha256 := digest c source id
    if permits c source s.transfers (.act conn .commit) ∧ validSHA256 sha256 then
      { transfers := s.transfers.zoneStep c source (.act conn .commit)
        rows := (s.listing.commit conn sha256).rows }
    else s

/-- What can happen: a file is put, an upload is committed, or anything else. -/
inductive Event
  | put (conn : ℕ) (request : PutRequest) (hasRoom created : Bool) (random : Fin 16 → UInt8)
      (now : ℤ)
  | commit (conn : ℕ)
  | transfers (event : DropTransfers.Event)

/-- What goes with a row is an event of its own. -/
def writesRow : DropTransfers.Event → Bool
  | .zone (.act _ (.put ..)) => true
  | .zone (.act _ .commit) => true
  | _ => false

def step (s : DropArrivals) : Event → DropArrivals
  | .put conn r hasRoom created random now => s.put c source conn r hasRoom created random now
  | .commit conn => s.commit c source conn
  | .transfers event =>
    if writesRow event then s else { s with transfers := s.transfers.step c source event }

/-- What a run leads to. -/
def after (limits : DropLimits) (es : List Event) : DropArrivals :=
  Run.after (step c source) { transfers := { zone := { limits } } } es

variable {c source} {s : DropArrivals} {t : DropTransfers} {id conn : ℕ} {f : DropFile}

/-! ## Below, transfers and rows

A run of the whole is a run of the transfers, and a row is written by the put and the commit of its
own file only. -/

theorem transfers_put (s : DropArrivals) (conn : ℕ) (r : PutRequest) (hasRoom created : Bool)
    (random : Fin 16 → UInt8) (now : ℤ) :
    (s.put c source conn r hasRoom created random now).transfers = s.transfers ∨
      ∃ e', (s.put c source conn r hasRoom created random now).transfers
        = s.transfers.step c source e' := by
  unfold put
  dsimp only
  split
  exacts [.inr ⟨.zone _, rfl⟩, .inl rfl]

theorem transfers_commit (s : DropArrivals) (conn : ℕ) :
    (s.commit c source conn).transfers = s.transfers ∨
      ∃ e', (s.commit c source conn).transfers = s.transfers.step c source e' := by
  unfold commit
  split
  · exact .inl rfl
  · dsimp only
    split
    exacts [.inr ⟨.zone _, rfl⟩, .inl rfl]

/-- What happens to the transfers is one of their own events, or nothing. -/
theorem transfers_step (s : DropArrivals) (e : Event) :
    (s.step c source e).transfers = s.transfers ∨
      ∃ e', (s.step c source e).transfers = s.transfers.step c source e' := by
  cases e with
  | put conn r hasRoom created random now => exact transfers_put s conn r hasRoom created random now
  | commit conn => exact transfers_commit s conn
  | transfers event =>
    rw [step]
    split
    exacts [.inl rfl, .inr ⟨event, rfl⟩]

/-- What every event of the transfers keeps is kept. -/
theorem keeps_of_transfers {I : DropTransfers → Prop} (hstep : ∀ t e, I t → I (t.step c source e))
    (h : I s.transfers) (e : Event) : I (s.step c source e).transfers := by
  rcases transfers_step s e with heq | ⟨e', heq⟩
  · exact heq ▸ h
  · exact heq ▸ hstep s.transfers e' h

/-- And a run of theirs leads to where they are. -/
theorem transfers_after (limits : DropLimits) (es : List Event) : ∃ es' : List DropTransfers.Event,
    (after c source limits es).transfers = DropTransfers.after c source limits es' := by
  refine Run.invariant
    (I := fun s : DropArrivals => ∃ es', s.transfers = DropTransfers.after c source limits es')
    (fun s e h =>
      keeps_of_transfers (I := fun t => ∃ es', t = DropTransfers.after c source limits es')
      (fun t e h => ?_) h e) es ⟨[], rfl⟩
  obtain ⟨es', rfl⟩ := h
  refine ⟨es' ++ [e], ?_⟩
  rw [DropTransfers.after, DropTransfers.after, Run.after_append]
  rfl

/-- The uploader of a file is at its blob. -/
theorem taskOf_of_uploaded {z : DropZone} (h : DropListing.uploaded z conn = some id) :
    z.taskOf conn = some (.uploading id) := by
  unfold DropListing.uploaded at h
  split at h
  · cases h
  next d hget =>
    split at h
    next id' htask =>
      obtain rfl := Option.some.inj h
      exact taskOf_eq_some.mpr ⟨d, hget, htask⟩
    next => cases h

/-- A put lists the file that is new. -/
theorem rows_put (s : DropArrivals) (conn : ℕ) (r : PutRequest) (hasRoom created : Bool)
    (random : Fin 16 → UInt8) (now : ℤ) (hne : id ≠ s.transfers.zone.ids) :
    (s.put c source conn r hasRoom created random now).rows.get? id = s.rows.get? id := by
  unfold put
  dsimp only
  split
  · rw [DropListing.put]
    dsimp only
    split
    · exact Dict.get?_insert_of_ne _ hne.symm _
    · rfl
  · rfl

/-- A commit changes the row of the file that is uploaded. -/
theorem rows_commit (s : DropArrivals) (conn : ℕ)
    (hne : DropListing.uploaded s.transfers.zone conn ≠ some id) :
    (s.commit c source conn).rows.get? id = s.rows.get? id := by
  unfold commit
  split
  · rfl
  next id' hid' =>
    dsimp only
    split
    next hvalid =>
      have hother : id ≠ id' := fun heq => hne (heq ▸ hid')
      rw [DropListing.get?_rows_commit hvalid.2 hid']
      simp only [if_neg hother, Option.map_id']
      rfl
    · rfl

/-! ## What is listed

A row is the file's from its put on; with the commit it has the checksum as well. -/

/-- What writes no row adds no file and finishes none. -/
theorem shrinks_transfers (event : DropTransfers.Event) (hrow : writesRow event = false) :
    Shrinks t.zone (t.step c source event).zone := by
  have hstays : ∀ {t' : DropTransfers}, SameRelay t t' → Shrinks t.zone t'.zone :=
    fun h => h.zone ▸ Shrinks.refl _
  cases event with
  | zone e =>
    refine shrinks_zoneStep t e ?_ ?_
    · rintro conn v r c rfl
      cases hrow
    · rintro conn rfl
      cases hrow
  | land conn k =>
    have hzone : (t.land conn k).zone = t.zone := by
      unfold land
      split <;> rfl
    exact (congrArg (Shrinks t.zone) hzone).mpr (Shrinks.refl _)
  | fetch conn folder id => exact shrinks_fetch t conn folder id
  | send conn k => exact hstays (sameRelay_send t conn k)
  | receive conn k => exact hstays (sameRelay_receive t conn k)
  | abort conn => exact hstays (sameRelay_abort t conn)
  | decode conn => exact hstays (sameRelay_decode t conn)

/-- The row is the file's. -/
structure Describes (source : ℕ → DropSource) (id : ℕ) (row : DropRow) : Prop where
  idText : row.id = (source id).idText
  size : row.request.size = (source id).content.length
  encoding : row.request.encoding = encodingText (source id).encoding

/-- Every file is listed as what it is, and a committed one with its checksum. -/
def Lists (c : Drop.Codec) (source : ℕ → DropSource) (s : DropArrivals) : Prop :=
  ∀ id f, s.transfers.zone.files.get? id = some f → ∃ row, s.rows.get? id = some row ∧
    Describes source id row ∧ (f.complete = true → row.sha256 = digest c source id)

/-- Files that were there are listed as they were. -/
theorem Lists.shrinks (h : Lists c source s) (hshrinks : Shrinks s.transfers.zone t.zone) :
    Lists c source { s with transfers := t } := by
  intro id f' hget
  obtain ⟨f, hf, hcomplete⟩ := hshrinks id f' hget
  obtain ⟨row, hrow, hdescribes, hsha256⟩ := h id f hf
  exact ⟨row, hrow, hdescribes, fun hwhole => hsha256 (hcomplete hwhole)⟩

/-- The new file is listed as the one that was put. -/
theorem Lists.put (h : Lists c source s) (hsound : Sound s.transfers.zone) (conn : ℕ)
    (r : PutRequest) (hasRoom created : Bool) (random : Fin 16 → UInt8) (now : ℤ) :
    Lists c source (s.put c source conn r hasRoom created random now) := by
  by_cases hpermits : permits c source s.transfers (.act conn
      (.put (request source s.transfers.zone.ids r).isValid hasRoom created)) ∧
      newDropID random = (source s.transfers.zone.ids).idText
  case neg =>
    have hsame : s.put c source conn r hasRoom created random now = s := if_neg hpermits
    rwa [hsame]
  case pos =>
    intro id f' hget
    have hzone : (s.put c source conn r hasRoom created random now).transfers.zone
        = s.transfers.zone.step (.act conn
          (.put (request source s.transfers.zone.ids r).isValid hasRoom created)) := by
      unfold DropArrivals.put
      dsimp only
      rw [if_pos hpermits, zone_zoneStep hpermits.1]
    rw [hzone] at hget
    by_cases hid : id = s.transfers.zone.ids
    · subst hid
      have hrow : (s.put c source conn r hasRoom created random now).rows.get? s.transfers.zone.ids
          = some
            { id := newDropID random
              request := request source s.transfers.zone.ids r
              created := int64 now } := by
        unfold DropArrivals.put
        dsimp only
        rw [if_pos hpermits]
        exact DropListing.get?_rows_put (s := s.listing) random now (Option.isSome_of_eq_some hget)
      refine ⟨_, hrow, ⟨hpermits.2, rfl, rfl⟩, fun hwhole => ?_⟩
      rw [hsound.put_incomplete hget] at hwhole
      cases hwhole
    · obtain ⟨f, hf, hcomplete⟩ := shrinks_put hid hget
      obtain ⟨row, hrow, hdescribes, hsha256⟩ := h id f hf
      rw [rows_put s conn r hasRoom created random now hid]
      exact ⟨row, hrow, hdescribes, fun hwhole => hsha256 (hcomplete hwhole)⟩

/-- The file that is committed gets its checksum. -/
theorem Lists.commit (h : Lists c source s) (conn : ℕ) :
    Lists c source (s.commit c source conn) := by
  unfold DropArrivals.commit
  split
  · exact h
  next id hid =>
    dsimp only
    split
    case isFalse => exact h
    case isTrue hpermits =>
      intro id' f' hget
      dsimp only at hget ⊢
      rw [zone_zoneStep hpermits.1] at hget
      rw [DropListing.get?_rows_commit hpermits.2 hid]
      by_cases heq : id' = id
      · subst heq
        obtain ⟨f, hf⟩ := Option.isSome_iff_exists.mp
          ((s.transfers.zone.keeps_step _ (fun _ _ _ _ h => by cases h)).files id'
            (Option.isSome_of_eq_some hget))
        obtain ⟨row, hrow, hdescribes, -⟩ := h id' f hf
        refine ⟨{ row with sha256 := digest c source id' }, ?_, ?_, fun _ => rfl⟩
        · change (s.rows.get? id').map _ = _
          rw [hrow, Option.map_some, if_pos rfl]
        · exact ⟨hdescribes.idText, hdescribes.size, hdescribes.encoding⟩
      · obtain ⟨f, hf, hcomplete⟩ := shrinks_commit (taskOf_of_uploaded hid) heq hget
        obtain ⟨row, hrow, hdescribes, hsha256⟩ := h id' f hf
        refine ⟨row, ?_, hdescribes, fun hwhole => hsha256 (hcomplete hwhole)⟩
        change (s.rows.get? id').map _ = _
        rw [hrow, Option.map_some, if_neg heq]

/-- **Every file stays listed as what it is.** -/
theorem Lists.step (h : Lists c source s) (hsound : Sound s.transfers.zone) (e : Event) :
    Lists c source (s.step c source e) := by
  cases e with
  | put conn r hasRoom created random now => exact h.put hsound conn r hasRoom created random now
  | commit conn => exact h.commit conn
  | transfers event =>
    rw [DropArrivals.step]
    split
    · exact h
    next hrow => exact h.shrinks (shrinks_transfers event (by simpa using hrow))

/-! ## Once committed

No session is at the blob of a whole file, and no id is drawn twice. -/

/-- A committed file's blob and row stay as they are. -/
structure Keeps (c : Drop.Codec) (source : ℕ → DropSource) (s s' : DropArrivals) (id : ℕ) :
    Prop where
  stored : Stored c source s'.transfers
  isSealed : Sealed s'.transfers.zone id
  blob : s'.transfers.blobs id = s.transfers.blobs id
  row : s'.rows.get? id = s.rows.get? id

/-- One event leaves a sealed file alone. -/
theorem keeps_step (h : Stored c source s.transfers) (hsealed : Sealed s.transfers.zone id)
    (e : Event) : Keeps c source s (s.step c source e) id := by
  have hrow : (s.step c source e).rows.get? id = s.rows.get? id := by
    cases e with
    | put conn r hasRoom created random now => exact rows_put s _ _ _ _ _ _ hsealed.made.ne
    | commit conn =>
      exact rows_commit s conn fun hid => hsealed.closed conn _ (taskOf_of_uploaded hid) rfl
    | transfers event =>
      rw [step]
      split <;> rfl
  rcases transfers_step s e with heq | ⟨e', heq⟩
  · exact ⟨heq ▸ h, heq ▸ hsealed, by rw [heq], hrow⟩
  · have hgoes := h.goes_step e'
    obtain ⟨hsealed', hblob⟩ := hgoes.isSealed id hsealed
    exact ⟨heq ▸ hgoes.stored, heq ▸ hsealed', by rw [heq, hblob], hrow⟩

/-- And so does a run. -/
theorem keeps_run (h : Stored c source s.transfers) (hsealed : Sealed s.transfers.zone id)
    (es : List Event) : Keeps c source s (Run.after (step c source) s es) id :=
  Run.invariant (I := fun s' => Keeps c source s s' id)
    (fun _ e h =>
      have hnext := keeps_step h.stored h.isSealed e
      ⟨hnext.stored, hnext.isSealed, hnext.blob.trans h.blob, hnext.row.trans h.row⟩)
    es ⟨h, hsealed, rfl, rfl⟩

/-! ## Runs -/

/-- What is promised of a dropped file, from its sender to whoever gets it. -/
structure ArrivesAsSent (c : Drop.Codec) (source : ℕ → DropSource) (s : DropArrivals) : Prop where
  /-- The relay holds the first bytes of the file's stream, as many as it counts but for a chunk on
  its way. -/
  stored : StoresStreams c source s.transfers
  listed : Lists c source s
  /-- What is committed stays as it is while it is listed. -/
  kept : ∀ id f, s.transfers.zone.files.get? id = some f → f.complete = true →
    ∀ es f', (Run.after (step c source) s es).transfers.zone.files.get? id = some f' →
      f'.complete = true ∧ f'.stored = f.stored ∧
        (Run.after (step c source) s es).transfers.blobs id = s.transfers.blobs id ∧
        (Run.after (step c source) s es).rows.get? id = s.rows.get? id
  /-- A get from any offset, whoever asks for it, sends the stream from there on, and all of it when
  it is not ended before. -/
  gets : ∀ conn dl f, s.transfers.zone.files.get? dl.id = some f → f.complete = true →
    dl.stored = f.stored.toNat → dl.position ≤ dl.stored →
      ∀ es : List DropTransfers.Event, (∀ e ∈ es, ¬ e.EndsGet conn) →
        sent c source conn (s.transfers.setDownload conn (some dl)) es
            <+: (stream c source dl.id).drop dl.position ∧
          ∀ k, dl.stored ≤ k →
            sent c source conn (s.transfers.setDownload conn (some dl)) (es ++ [.send conn k])
              = (stream c source dl.id).drop dl.position
  saved : Checked c source s.transfers
  /-- And a download is saved, where files have partial files of their own. -/
  delivered : c.Restores → StemsDiffer source s.transfers.zone.ids →
    DeliversFiles c source s.transfers

/-- A get of a committed file, from an offset it has. -/
theorem sends_of_committed (h : Stored c source t) {dl : DropDownload}
    (hf : t.zone.files.get? dl.id = some f) (hcomplete : f.complete = true)
    (hstored : dl.stored = f.stored.toNat) (hposition : dl.position ≤ dl.stored) (conn : ℕ) :
    Reads c source (t.setDownload conn (some dl)) conn dl.id dl.position := by
  obtain ⟨hwhole, hbacked⟩ := h.committed hf hcomplete
  have hgoes : Goes c source t (t.setDownload conn (some dl)) := h.goes_same ⟨rfl, rfl, rfl⟩
  refine ⟨hgoes.stored, h.isSealed hf hcomplete, hwhole ▸ hbacked, dl, ?_, rfl,
    hstored.trans hwhole, rfl, hposition⟩
  exact Function.update_self conn _ _

/-- **A dropped file arrives as it was sent**, whatever was cut and resumed on the way. -/
theorem arrives_after (c : Drop.Codec) (source : ℕ → DropSource) (limits : DropLimits)
    (es : List Event) : ArrivesAsSent c source (after c source limits es) := by
  obtain ⟨es', htransfers⟩ := @transfers_after c source limits es
  have hlists : Stored c source (after c source limits es).transfers ∧
      Lists c source (after c source limits es) :=
    Run.invariant (I := fun s : DropArrivals => Stored c source s.transfers ∧ Lists c source s)
      (fun s e h => ⟨keeps_of_transfers (fun _ e h => (h.goes_step e).stored) h.1 e,
        h.2.step h.1.sound e⟩) es ⟨Stored.init limits, fun id f hf => by cases hf⟩
  have hstored := hlists.1
  refine ⟨hstored.storesStreams, hlists.2, fun id f hf hcomplete es f' hf' => ?_,
    fun conn dl f hf hcomplete hsize hposition es hgoes => ?_, ?_, fun hrestores hdiffer => ?_⟩
  · have hkeeps := keeps_run hstored (hstored.isSealed hf hcomplete) es
    have hcomplete' := hkeeps.isSealed.complete f' hf'
    refine ⟨hcomplete', ?_, hkeeps.blob, hkeeps.row⟩
    exact (hkeeps.stored.storesStreams.committed id f' hf' hcomplete').trans
      (hstored.storesStreams.committed id f hf hcomplete).symm
  · have hwhole := (hstored.committed hf hcomplete).1
    obtain ⟨hsent, hall⟩ :=
      (sends_of_committed hstored hf hcomplete hsize hposition conn).sends es hgoes
    exact ⟨hsent, fun k hk => hall k (by omega)⟩
  · rw [htransfers]
    exact Run.invariant (fun _ e h => h.step e) es' fun r hr => by cases hr
  · rw [htransfers] at hdiffer ⊢
    exact (delivers_of_stemsDiffer hrestores hdiffer limits es' le_rfl).deliversFiles
      hrestores hdiffer

/-- A codec that leaves a file as it is, with the first 32 bytes for a checksum. -/
def headCodec : Drop.Codec where
  compress file := [file]
  decompress := some
  sha256 file := file.takeD 32 0

theorem headCodec_restores : headCodec.Restores := fun file =>
  congrArg some (List.append_nil file)

/-- The bytes an id is drawn from, all but the last of them zero. -/
def drawn (last : UInt8) : Fin 16 → UInt8 := fun i => if i = 15 then last else 0

/-- Two files of 34 bytes that begin alike, as their ids do. -/
def alike : ℕ → DropSource
  | 0 => ⟨.zstd, List.replicate 32 0 ++ [1, 2], newDropID (drawn 0)⟩
  | _ => ⟨.zstd, List.replicate 32 0 ++ [3, 4], newDropID (drawn 1)⟩

def exampleRequest : PutRequest where
  name := "a".toList
  size := 0
  mode := 0
  mtime := 0
  encoding := []
  fingerprint := []

/-- A file put by the connection, up to its one chunk. -/
def begun (last : UInt8) : List Event :=
  [.put 0 exampleRequest true true (drawn last) 0,
    .transfers (.zone (.act 0 (.reserve 34 true)))]

/-- And from there to its commit. -/
def finished : List Event :=
  [.transfers (.land 0 34), .transfers (.zone (.act 0 (.copied 34))), .commit 0,
    .transfers (.zone (.act 0 .stopWriting))]

def admitted : Event := .transfers (.zone (.admitSession 0))

/-- The second file's download goes on from what is left of the first one's. -/
def shared : List Event :=
  admitted :: begun 0 ++ finished ++ begun 1 ++ finished ++
    [.transfers (.fetch 0 0 0), .transfers (.send 0 34), .transfers (.receive 0 33),
      .transfers (.abort 0), .transfers (.fetch 0 0 1), .transfers (.send 0 34),
      .transfers (.receive 0 34), .transfers (.decode 0)]

/-- A reserved chunk is counted before any of it is copied, and a file that shares its checksum with
what was downloaded is not told from it. -/
theorem counted_ahead_and_mistaken : headCodec.Restores ∧
    (¬ ∀ es id f, (after headCodec alike exampleLimits es).transfers.zone.files.get? id = some f →
      ((after headCodec alike exampleLimits es).transfers.blobs id).take f.stored.toNat
        = (stream headCodec alike id).take f.stored.toNat) ∧
      ¬ ∀ es, ∀ r ∈ (after headCodec alike exampleLimits es).transfers.results, ∀ bytes,
        r.2 = some bytes → bytes = (alike r.1).content := by
  refine ⟨headCodec_restores, ?_, ?_⟩
  · intro h
    have hthere : ((after headCodec alike exampleLimits
        (admitted :: begun 0)).transfers.zone.files.get? 0).map DropFile.stored = some 34 := by
      decide +kernel
    obtain ⟨f, hf, hstored⟩ := Option.map_eq_some_iff.mp hthere
    have hsame := h (admitted :: begun 0) 0 f hf
    rw [hstored] at hsame
    exact absurd hsame (by decide +kernel)
  · intro h
    have hresults : (after headCodec alike exampleLimits shared).transfers.results
        = [(1, some (List.replicate 32 0 ++ [1, 4]))] := by decide +kernel
    have hsaved := h shared (1, some (List.replicate 32 0 ++ [1, 4]))
      (hresults ▸ List.mem_singleton_self _) _ rfl
    exact absurd hsaved (by decide)

end DropArrivals
