import IGhostVT.Relay.DropStored

/-!
# Relay/DropDelivery — what is downloaded is what was put

A download reads a committed file, whose blob no session writes again, so what its partial file
holds and what is on its way are the stream so far (`Download`), and a partial file grows along the
stream however often its download is cut.
-/

open Relay

namespace DropTransfers

open DropZone

variable {c : Drop.Codec} {source : ℕ → DropSource} {t t' : DropTransfers} {id conn n : ℕ}
  {f : DropFile}

/-- No two of the first `n` ids begin alike: each has partial files of its own. -/
def StemsDiffer (source : ℕ → DropSource) (n : ℕ) : Prop :=
  ∀ i < n, ∀ j < n, (source i).stem = (source j).stem → i = j

/-- What is read of a blob is of the stream. -/
theorem Backed.slice {blob : List UInt8} {stored : ℕ} (h : Backed c source blob id stored)
    (position k : ℕ) : (blob.drop position).take (min k (stored - position))
      = ((stream c source id).drop position).take (min k (stored - position)) := by
  have hread := congrArg (fun bytes => (bytes.drop position).take k) h.take
  rwa [List.drop_take, List.drop_take, List.take_take, List.take_take] at hread

/-! ## Downloads -/

/-- **Where a download stands**: the partial file and what is on its way are the stream so far. -/
structure Download (c : Drop.Codec) (source : ℕ → DropSource) (t : DropTransfers)
    (dl : DropDownload) :
    Prop where
  isSealed : Sealed t.zone dl.id
  stem : dl.stem = (source dl.id).stem
  stored : dl.stored = (stream c source dl.id).length
  backed : Backed c source (t.blobs dl.id) dl.id dl.stored
  position : dl.position ≤ dl.stored
  sent : t.partials dl.folder dl.stem ++ dl.wire = (stream c source dl.id).take dl.position
  locked : t.locked dl.folder dl.stem = true

/-- What is promised of the whole, while `n` ids at most were drawn. -/
structure Delivers (c : Drop.Codec) (source : ℕ → DropSource) (n : ℕ) (t : DropTransfers) :
    Prop where
  stored : Stored c source t
  download : ∀ conn dl, t.downloads conn = some dl → Download c source t dl
  alone : ∀ conn conn' dl dl', t.downloads conn = some dl → t.downloads conn' = some dl' →
    dl.folder = dl'.folder → dl.stem = dl'.stem → conn = conn'
  partials : ∀ folder, ∀ id < n, t.partials folder (source id).stem <+: stream c source id
  results : ∀ r ∈ t.results, r.2 = some (source r.1).content

variable {dl : DropDownload} {folder : ℕ} {stem : List Char}

theorem partials_setPartial (t : DropTransfers) (folder : ℕ) (stem : List Char) (bytes : List UInt8)
    (folder' : ℕ) (stem' : List Char) : (t.setPartial folder stem bytes).partials folder' stem'
      = if folder' = folder ∧ stem' = stem then bytes else t.partials folder' stem' := by
  change Function.update t.partials folder _ folder' stem' = _
  by_cases hfolder : folder' = folder
  · subst hfolder
    rw [Function.update_self, Function.update_apply]
    simp only [true_and]
  · rw [Function.update_of_ne hfolder, if_neg fun h => hfolder h.1]

theorem locked_setLocked (t : DropTransfers) (folder : ℕ) (stem : List Char) (value : Bool)
    (folder' : ℕ) (stem' : List Char) : (t.setLocked folder stem value).locked folder' stem'
      = if folder' = folder ∧ stem' = stem then value else t.locked folder' stem' := by
  change Function.update t.locked folder _ folder' stem' = _
  by_cases hfolder : folder' = folder
  · subst hfolder
    rw [Function.update_self, Function.update_apply]
    simp only [true_and]
  · rw [Function.update_of_ne hfolder, if_neg fun h => hfolder h.1]

/-- A step that is none of a download's leaves it where it stood. -/
theorem Download.goes (h : Download c source t dl) (hgoes : Goes c source t t')
    (hkept : t'.partials dl.folder dl.stem = t.partials dl.folder dl.stem)
    (hlocked : t'.locked dl.folder dl.stem = t.locked dl.folder dl.stem) :
    Download c source t' dl where
  isSealed := (hgoes.isSealed dl.id h.isSealed).1
  stem := h.stem
  stored := h.stored
  backed := by
    rw [(hgoes.isSealed dl.id h.isSealed).2]
    exact h.backed
  position := h.position
  sent := by
    rw [hkept]
    exact h.sent
  locked := hlocked.trans h.locked

/-- The downloads are as they were. -/
structure SameDownloads (t t' : DropTransfers) : Prop where
  downloads : t'.downloads = t.downloads
  partials : t'.partials = t.partials
  locked : t'.locked = t.locked
  results : t'.results = t.results

theorem Delivers.goes (h : Delivers c source n t) (hgoes : Goes c source t t')
    (hsame : SameDownloads t t') : Delivers c source n t' where
  stored := hgoes.stored
  download conn dl hdl :=
    (h.download conn dl (hsame.downloads ▸ hdl)).goes hgoes (by rw [hsame.partials])
      (by rw [hsame.locked])
  alone conn conn' dl dl' hdl hdl' :=
    h.alone conn conn' dl dl' (hsame.downloads ▸ hdl) (hsame.downloads ▸ hdl')
  partials folder id hid := by
    rw [hsame.partials]
    exact h.partials folder id hid
  results r hr := h.results r (hsame.results ▸ hr)

theorem sameDownloads_follow (t : DropTransfers) (zone : DropZone) (conn : ℕ)
    (action : DropZone.Action) (task : DropTask) :
    SameDownloads t (t.follow c source zone conn action task) := by
  unfold DropTransfers.follow
  dsimp only
  split
  · split <;> exact ⟨rfl, rfl, rfl, rfl⟩
  · split
    · exact ⟨rfl, rfl, rfl, rfl⟩
    · split <;> exact ⟨rfl, rfl, rfl, rfl⟩
  · split <;> exact ⟨rfl, rfl, rfl, rfl⟩
  · split <;> exact ⟨rfl, rfl, rfl, rfl⟩
  · split <;> exact ⟨rfl, rfl, rfl, rfl⟩
  · exact ⟨rfl, rfl, rfl, rfl⟩

theorem sameDownloads_zoneStep (t : DropTransfers) (e : DropZone.Event) :
    SameDownloads t (t.zoneStep c source e) := by
  unfold DropTransfers.zoneStep
  split
  case isFalse => exact ⟨rfl, rfl, rfl, rfl⟩
  case isTrue =>
    cases e with
    | act conn action =>
      dsimp only
      split
      · exact ⟨rfl, rfl, rfl, rfl⟩
      · exact sameDownloads_follow t _ conn action _
    | _ => exact ⟨rfl, rfl, rfl, rfl⟩

theorem sameDownloads_land (t : DropTransfers) (conn k : ℕ) : SameDownloads t (t.land conn k) := by
  unfold DropTransfers.land
  split <;> exact ⟨rfl, rfl, rfl, rfl⟩

/-- Getting a file writes none. -/
theorem quiet_get (hready : t.zone.taskOf conn = some .ready) (id : ℕ) (offset : ℤ) :
    Quiet t.zone (t.zone.step (.act conn (.get id offset))) := by
  obtain ⟨d, hget, htask⟩ := taskOf_eq_some.mp hready
  have hcopying : ∀ id n, d.task ≠ .copying id n := fun _ _ heq => by
    rw [htask] at heq
    cases heq
  rw [DropZone.step, hget]
  dsimp only
  rw [htask, DropZone.act, DropZone.get]
  split
  · exact Quiet.refuse _ conn _
  next f hfile =>
    split
    · exact Quiet.refuse _ conn _
    split
    · exact Quiet.refuse _ conn _
    · exact Quiet.holdLocked hget hcopying rfl hfile

theorem ids_get (z : DropZone) (conn id : ℕ) (offset : ℤ) :
    (z.step (.act conn (.get id offset))).ids = z.ids := by
  rw [DropZone.step]
  cases z.sessions.get? conn with
  | none => rfl
  | some d =>
    dsimp only
    cases d.task with
    | ready =>
      rw [DropZone.act, DropZone.get]
      split
      · rfl
      split
      · rfl
      split
      · rfl
      rw [DropZone.holdLocked]
      split <;> rfl
    | _ => rfl

/-- Getting a file draws no id. -/
theorem ids_fetch (t : DropTransfers) (conn folder id : ℕ) :
    (t.fetch source conn folder id).zone.ids = t.zone.ids := by
  unfold DropTransfers.fetch
  dsimp only
  split
  case isFalse => rfl
  split
  · exact ids_get t.zone conn id 0
  · split <;> exact ids_get t.zone conn id _

/-- A committed file is whole and stays so. -/
theorem Stored.isSealed (h : Stored c source t) (hf : t.zone.files.get? id = some f)
    (hcomplete : f.complete = true) : Sealed t.zone id where
  made := h.sound.holds.made id f hf
  complete g hg := by
    cases hf.symm.trans hg
    exact hcomplete
  closed conn task htask hblob := by
    rw [(h.writer conn task id f htask hblob hf).not_complete hblob] at hcomplete
    cases hcomplete

theorem Stored.committed (h : Stored c source t) (hf : t.zone.files.get? id = some f)
    (hcomplete : f.complete = true) : f.stored.toNat = (stream c source id).length ∧
      Backed c source (t.blobs id) id f.stored.toNat := by
  obtain ⟨hbacked, hwhole⟩ := h.settled id f hf (h.isSealed hf hcomplete).closed
  exact ⟨hwhole hcomplete, hbacked⟩

/-- No blob and no upload is touched. -/
theorem Stored.still (h : Stored c source t) (hquiet : Quiet t.zone t'.zone)
    (hsound : Sound t'.zone) (hblobs : t'.blobs = t.blobs) (huploads : t'.uploads = t.uploads) :
    Stored c source t' := by
  have hstored := h.quiet hquiet hsound
  refine ⟨hsound, ?_, ?_⟩
  · rw [hblobs, huploads]
    exact hstored.writer
  · rw [hblobs]
    exact hstored.settled

theorem Stored.goes_still (h : Stored c source t) (hquiet : Quiet t.zone t'.zone)
    (hsound : Sound t'.zone) (hblobs : t'.blobs = t.blobs) (huploads : t'.uploads = t.uploads) :
    Goes c source t t' :=
  ⟨h.still hquiet hsound hblobs huploads,
    fun id hsealed => ⟨hquiet.isSealed hsealed, congrFun hblobs id⟩, hquiet.ids⟩

/-- The relay's side is as it was. -/
structure SameRelay (t t' : DropTransfers) : Prop where
  zone : t'.zone = t.zone
  blobs : t'.blobs = t.blobs
  uploads : t'.uploads = t.uploads

theorem sameRelay_send (t : DropTransfers) (conn k : ℕ) : SameRelay t (t.send conn k) := by
  unfold DropTransfers.send
  split <;> exact ⟨rfl, rfl, rfl⟩

theorem sameRelay_receive (t : DropTransfers) (conn k : ℕ) : SameRelay t (t.receive conn k) := by
  unfold DropTransfers.receive
  split <;> exact ⟨rfl, rfl, rfl⟩

theorem sameRelay_abort (t : DropTransfers) (conn : ℕ) : SameRelay t (t.abort conn) := by
  unfold DropTransfers.abort
  split <;> exact ⟨rfl, rfl, rfl⟩

theorem sameRelay_decode (t : DropTransfers) (conn : ℕ) :
    SameRelay t (t.decode c source conn) := by
  unfold DropTransfers.decode
  split
  · exact ⟨rfl, rfl, rfl⟩
  · dsimp only
    split <;> exact ⟨rfl, rfl, rfl⟩

/-- What the downloader does for itself is nothing to the relay. -/
theorem Stored.goes_same (h : Stored c source t) (hsame : SameRelay t t') : Goes c source t t' :=
  h.goes_still (hsame.zone ▸ Quiet.refl _) (hsame.zone ▸ h.sound) hsame.blobs hsame.uploads

/-- One download of one file begins, goes on or ends: the others are elsewhere. -/
theorem Delivers.turn (h : Delivers c source n t) (hdiffer : StemsDiffer source n) (hid : id < n)
    (hstem : stem = (source id).stem) (hgoes : Goes c source t t')
    (hothers : ∀ conn' dl, conn' ≠ conn → t.downloads conn' = some dl →
      ¬ (dl.folder = folder ∧ dl.stem = stem))
    (hdownloads : ∀ conn', conn' ≠ conn → t'.downloads conn' = t.downloads conn')
    (hpartials : ∀ folder' stem', ¬ (folder' = folder ∧ stem' = stem) →
      t'.partials folder' stem' = t.partials folder' stem')
    (hlocked : ∀ folder' stem', ¬ (folder' = folder ∧ stem' = stem) →
      t'.locked folder' stem' = t.locked folder' stem')
    (hkept : t'.partials folder stem <+: stream c source id)
    (hdownload : ∀ dl, t'.downloads conn = some dl →
      dl.folder = folder ∧ dl.stem = stem ∧ Download c source t' dl)
    (hresults : ∀ r ∈ t'.results, r.2 = some (source r.1).content) : Delivers c source n t' where
  stored := hgoes.stored
  download conn' dl hdl := by
    by_cases heq : conn' = conn
    · exact (hdownload dl (heq ▸ hdl)).2.2
    · rw [hdownloads conn' heq] at hdl
      have hother := hothers conn' dl heq hdl
      exact (h.download conn' dl hdl).goes hgoes (hpartials _ _ hother) (hlocked _ _ hother)
  alone := by
    have helsewhere : ∀ conn' dl dl', t'.downloads conn = some dl → t'.downloads conn' = some dl' →
        dl.folder = dl'.folder → dl.stem = dl'.stem → conn' = conn := by
      intro conn' dl dl' hdl hdl' hfolder hsame
      by_contra hne
      obtain ⟨hfolder', hstem', -⟩ := hdownload dl hdl
      rw [hdownloads conn' hne] at hdl'
      exact hothers conn' dl' hne hdl' ⟨hfolder.symm.trans hfolder', hsame.symm.trans hstem'⟩
    intro conn₁ conn₂ dl₁ dl₂ hdl₁ hdl₂ hfolder hsame
    by_cases heq₁ : conn₁ = conn
    · subst heq₁
      exact (helsewhere conn₂ dl₁ dl₂ hdl₁ hdl₂ hfolder hsame).symm
    by_cases heq₂ : conn₂ = conn
    · subst heq₂
      exact helsewhere conn₁ dl₂ dl₁ hdl₂ hdl₁ hfolder.symm hsame.symm
    rw [hdownloads conn₁ heq₁] at hdl₁
    rw [hdownloads conn₂ heq₂] at hdl₂
    exact h.alone conn₁ conn₂ dl₁ dl₂ hdl₁ hdl₂ hfolder hsame
  partials folder' id' hid' := by
    by_cases heq : folder' = folder ∧ (source id').stem = stem
    · -- no other file of the first `n` goes by this stem
      obtain rfl := hdiffer id' hid' id hid (heq.2.trans hstem)
      rw [heq.1, ← hstem]
      exact hkept
    · rw [hpartials folder' _ heq]
      exact h.partials folder' id' hid'
  results := hresults

theorem Delivers.fetch (h : Delivers c source n t) (hdiffer : StemsDiffer source n)
    (hids : t.zone.ids ≤ n) (conn folder id : ℕ) :
    Delivers c source n (t.fetch source conn folder id) := by
  unfold DropTransfers.fetch
  dsimp only
  split
  case isFalse => exact h
  case isTrue hfree =>
    obtain ⟨hready, hnone, hunlocked⟩ := hfree
    have hquiet := fun offset : ℤ => quiet_get hready id offset
    have hsound := fun offset : ℤ => h.stored.sound.step (.act conn (.get id offset))
    split
    case h_1 =>
      exact h.goes (h.stored.goes_quiet (hquiet 0) (hsound 0)) ⟨rfl, rfl, rfl, rfl⟩
    case h_2 f hf =>
      have hid : id < n := (h.stored.sound.holds.made id f hf).trans_le hids
      generalize hstem : (source id).stem = stem at hunlocked
      generalize hheld : (if ((t.partials folder stem).length : ℤ) > f.stored then []
        else t.partials folder stem) = held
      have hheldPrefix : held <+: stream c source id := by
        rw [← hheld, ← hstem]
        split
        exacts [List.nil_prefix, h.partials folder id hid]
      have hothers : ∀ conn' dl, conn' ≠ conn → t.downloads conn' = some dl →
          ¬ (dl.folder = folder ∧ dl.stem = stem) := by
        rintro conn' dl - hdl ⟨rfl, rfl⟩
        rw [(h.download conn' dl hdl).locked] at hunlocked
        cases hunlocked
      have hpartials := partials_setPartial t folder stem held
      split
      case isFalse =>
        refine h.turn hdiffer hid hstem.symm
          (h.stored.goes_still (hquiet _) (hsound _) rfl rfl) hothers
          (fun _ _ => rfl) (fun folder' stem' hne => (hpartials folder' stem').trans (if_neg hne))
          (fun _ _ _ => rfl) ?_ (fun dl hdl => ?_) h.results
        · exact ((hpartials folder stem).trans (if_pos ⟨rfl, rfl⟩)).symm ▸ hheldPrefix
        · cases hnone.symm.trans hdl
      case isTrue hcomplete =>
        obtain ⟨hwhole, hbacked⟩ := h.stored.committed hf hcomplete
        have hlocked := locked_setLocked t folder stem true
        refine h.turn hdiffer hid hstem.symm
          (h.stored.goes_still (hquiet _) (hsound _) rfl rfl) hothers
          (fun conn' hne => Function.update_of_ne hne _ _)
          (fun folder' stem' hne => (hpartials folder' stem').trans (if_neg hne))
          (fun folder' stem' hne => (hlocked folder' stem').trans (if_neg hne)) ?_
          (fun dl hdl => ?_) h.results
        · exact ((hpartials folder stem).trans (if_pos ⟨rfl, rfl⟩)).symm ▸ hheldPrefix
        · have hdl : dl = { folder, id, stem, position := held.length, stored := f.stored.toNat } :=
            (Option.some.inj ((Function.update_self conn _ _).symm.trans hdl)).symm
          subst hdl
          have hsealed := (hquiet held.length).isSealed (h.stored.isSealed hf hcomplete)
          refine ⟨rfl, rfl, hsealed, hstem.symm, hwhole, hbacked, ?_, ?_, ?_⟩
          · exact hheldPrefix.length_le.trans hwhole.ge
          · refine ((congrArg (· ++ []) ((hpartials folder stem).trans (if_pos ⟨rfl, rfl⟩))).trans
              (List.append_nil held)).trans (List.prefix_iff_eq_take.mp hheldPrefix)
          · exact (hlocked folder stem).trans (if_pos ⟨rfl, rfl⟩)

/-- The download of a connection is the only one of its file in its folder. -/
theorem Delivers.others (h : Delivers c source n t) (hdl : t.downloads conn = some dl) :
    ∀ conn' dl', conn' ≠ conn → t.downloads conn' = some dl' →
      ¬ (dl'.folder = dl.folder ∧ dl'.stem = dl.stem) :=
  fun conn' dl' hne hdl' hsame => hne (h.alone conn' conn dl' dl hdl' hdl hsame.1 hsame.2)

/-- What its partial file holds is of its file. -/
theorem Delivers.held (h : Delivers c source n t) (hids : t.zone.ids ≤ n)
    (hdl : t.downloads conn = some dl) :
    t.partials dl.folder dl.stem <+: stream c source dl.id := by
  have hat := h.download conn dl hdl
  rw [hat.stem]
  exact h.partials dl.folder dl.id (hat.isSealed.made.trans_le hids)

theorem Delivers.send (h : Delivers c source n t) (hdiffer : StemsDiffer source n)
    (hids : t.zone.ids ≤ n) (conn k : ℕ) : Delivers c source n (t.send conn k) := by
  unfold DropTransfers.send
  split
  case h_1 => exact h
  case h_2 dl hdl =>
    have hat := h.download conn dl hdl
    dsimp only
    rw [hat.backed.slice]
    generalize hbytes :
      ((stream c source dl.id).drop dl.position).take (min k (dl.stored - dl.position)) = bytes
    have hlength : bytes.length = min k (dl.stored - dl.position) := by
      rw [← hbytes, List.length_take, List.length_drop, ← hat.stored]
      omega
    have hmore : (stream c source dl.id).take (dl.position + bytes.length)
        = (stream c source dl.id).take dl.position ++ bytes := by
      rw [List.take_add, hlength, hbytes]
    have hposition := hat.position
    refine h.turn hdiffer (hat.isSealed.made.trans_le hids) hat.stem
      (h.stored.goes_same ⟨rfl, rfl, rfl⟩) (h.others hdl)
      (fun conn' hne => Function.update_of_ne hne _ _) (fun _ _ _ => rfl) (fun _ _ _ => rfl)
      (h.held hids hdl) (fun dl' hdl' => ?_)
      h.results
    cases (Option.some.inj ((Function.update_self conn _ _).symm.trans hdl')).symm
    refine ⟨rfl, rfl, hat.isSealed, hat.stem, hat.stored, hat.backed, ?_, ?_, hat.locked⟩
    · dsimp only
      omega
    · dsimp only
      rw [hmore, ← hat.sent, List.append_assoc]
      rfl

theorem Delivers.receive (h : Delivers c source n t) (hdiffer : StemsDiffer source n)
    (hids : t.zone.ids ≤ n) (conn k : ℕ) :
    Delivers c source n (t.receive conn k) := by
  unfold DropTransfers.receive
  split
  case h_1 => exact h
  case h_2 dl hdl =>
    have hat := h.download conn dl hdl
    dsimp only
    generalize hbytes : dl.wire.take
      (min k (dl.stored - (t.partials dl.folder dl.stem).length)) = bytes
    have hwire : bytes ++ dl.wire.drop bytes.length = dl.wire :=
      List.prefix_iff_eq_append.mp (hbytes ▸ List.take_prefix _ _)
    have hpartials :=
      partials_setPartial t dl.folder dl.stem (t.partials dl.folder dl.stem ++ bytes)
    have hkept := (hpartials dl.folder dl.stem).trans (if_pos ⟨rfl, rfl⟩)
    have hsent : t.partials dl.folder dl.stem ++ bytes ++ dl.wire.drop bytes.length
        = (stream c source dl.id).take dl.position := by
      rw [List.append_assoc, hwire, hat.sent]
    refine h.turn hdiffer (hat.isSealed.made.trans_le hids) hat.stem
      (h.stored.goes_same ⟨rfl, rfl, rfl⟩) (h.others hdl)
      (fun conn' hne => Function.update_of_ne hne _ _)
      (fun folder' stem' hne => (hpartials folder' stem').trans (if_neg hne)) (fun _ _ _ => rfl) ?_
      (fun dl' hdl' => ?_) h.results
    · refine hkept.symm ▸ ?_
      exact (List.prefix_append _ _).trans (hsent ▸ List.take_prefix _ _)
    · cases (Option.some.inj ((Function.update_self conn _ _).symm.trans hdl')).symm
      exact ⟨rfl, rfl, hat.isSealed, hat.stem, hat.stored, hat.backed, hat.position,
        (congrArg (· ++ dl.wire.drop bytes.length) hkept).trans hsent, hat.locked⟩

theorem Delivers.abort (h : Delivers c source n t) (hdiffer : StemsDiffer source n)
    (hids : t.zone.ids ≤ n) (conn : ℕ) : Delivers c source n (t.abort conn) := by
  unfold DropTransfers.abort
  split
  case h_1 => exact h
  case h_2 dl hdl =>
    have hat := h.download conn dl hdl
    have hlocked := locked_setLocked t dl.folder dl.stem false
    refine h.turn hdiffer (hat.isSealed.made.trans_le hids) hat.stem
      (h.stored.goes_same ⟨rfl, rfl, rfl⟩) (h.others hdl)
      (fun conn' hne => Function.update_of_ne hne _ _) (fun _ _ _ => rfl)
      (fun folder' stem' hne => (hlocked folder' stem').trans (if_neg hne))
      (h.held hids hdl)
      (fun dl' hdl' => ?_) h.results
    cases (Function.update_self conn _ _).symm.trans hdl'

theorem Delivers.decode (h : Delivers c source n t) (hdiffer : StemsDiffer source n)
    (hids : t.zone.ids ≤ n) (hrestores : c.Restores) (conn : ℕ) :
    Delivers c source n (t.decode c source conn) := by
  unfold DropTransfers.decode
  split
  case h_1 => exact h
  case h_2 dl hdl =>
    dsimp only
    split
    case isTrue => exact h
    case isFalse hlong =>
      have hat := h.download conn dl hdl
      have hwhole : t.partials dl.folder dl.stem = stream c source dl.id :=
        (h.held hids hdl).eq_of_length_le (hat.stored ▸ Nat.le_of_not_lt hlong)
      have hpartials := partials_setPartial t dl.folder dl.stem []
      have hlocked := locked_setLocked t dl.folder dl.stem false
      refine h.turn hdiffer (hat.isSealed.made.trans_le hids) hat.stem
        (h.stored.goes_same ⟨rfl, rfl, rfl⟩) (h.others hdl)
        (fun conn' hne => Function.update_of_ne hne _ _)
        (fun folder' stem' hne => (hpartials folder' stem').trans (if_neg hne))
        (fun folder' stem' hne => (hlocked folder' stem').trans (if_neg hne)) ?_
          (fun dl' hdl' => ?_) ?_
      · exact ((hpartials dl.folder dl.stem).trans (if_pos ⟨rfl, rfl⟩)).symm ▸ List.nil_prefix
      · cases (Function.update_self conn _ _).symm.trans hdl'
      · intro r hr
        rcases List.mem_append.mp hr with hr | hr
        · exact h.results r hr
        · rw [List.mem_singleton.mp hr, hwhole]
          exact Drop.Codec.decode_stream hrestores _ _

theorem Delivers.step (h : Delivers c source n t) (hdiffer : StemsDiffer source n)
    (hids : t.zone.ids ≤ n) (hrestores : c.Restores) (e : Event) :
    Delivers c source n (t.step c source e) := by
  cases e with
  | zone event => exact h.goes (h.stored.zoneStep event) (sameDownloads_zoneStep t event)
  | land conn k => exact h.goes (h.stored.land conn k) (sameDownloads_land t conn k)
  | fetch conn folder id => exact h.fetch hdiffer hids conn folder id
  | send conn k => exact h.send hdiffer hids conn k
  | receive conn k => exact h.receive hdiffer hids conn k
  | abort conn => exact h.abort hdiffer hids conn
  | decode conn => exact h.decode hdiffer hids hrestores conn

theorem Stored.init (limits : DropLimits) : Stored c source { zone := { limits } } where
  sound := Sound.init limits
  writer := by rintro conn task id f - - ⟨⟩
  settled := by rintro id f ⟨⟩

theorem Delivers.init (limits : DropLimits) : Delivers c source n { zone := { limits } } where
  stored := Stored.init limits
  download := by rintro conn dl ⟨⟩
  alone := by rintro conn conn' dl dl' ⟨⟩
  partials _ _ _ := List.nil_prefix
  results := by rintro r ⟨⟩

/-! ## Results -/

theorem Stored.goes_fetch (h : Stored c source t) (conn folder id : ℕ) :
    Goes c source t (t.fetch source conn folder id) := by
  unfold DropTransfers.fetch
  dsimp only
  split
  case isFalse => exact h.goes_same ⟨rfl, rfl, rfl⟩
  case isTrue hfree =>
    have hquiet := fun offset : ℤ => quiet_get hfree.1 id offset
    have hsound := fun offset : ℤ => h.sound.step (.act conn (.get id offset))
    split
    case h_1 => exact h.goes_quiet (hquiet 0) (hsound 0)
    case h_2 =>
      split
      · exact h.goes_still (hquiet _) (hsound _) rfl rfl
      · exact h.goes_still (hquiet _) (hsound _) rfl rfl

/-- What is stored does not rest on what the codec restores. -/
theorem Stored.goes_step (h : Stored c source t) (e : Event) :
    Goes c source t (t.step c source e) := by
  cases e with
  | zone event => exact h.zoneStep event
  | land conn k => exact h.land conn k
  | fetch conn folder id => exact h.goes_fetch conn folder id
  | send conn k => exact h.goes_same (sameRelay_send t conn k)
  | receive conn k => exact h.goes_same (sameRelay_receive t conn k)
  | abort conn => exact h.goes_same (sameRelay_abort t conn)
  | decode conn => exact h.goes_same (sameRelay_decode t conn)

theorem results_send (t : DropTransfers) (conn k : ℕ) : (t.send conn k).results = t.results := by
  unfold DropTransfers.send
  split <;> rfl

theorem partials_send (t : DropTransfers) (conn k : ℕ) : (t.send conn k).partials = t.partials := by
  unfold DropTransfers.send
  split <;> rfl

theorem results_receive (t : DropTransfers) (conn k : ℕ) :
    (t.receive conn k).results = t.results := by
  unfold DropTransfers.receive
  split <;> rfl

/-- All that is left of the blob, sent at once. -/
theorem Delivers.sent (h : Delivers c source n t) (hdiffer : StemsDiffer source n)
    (hids : t.zone.ids ≤ n) (hdl : t.downloads conn = some dl) {k : ℕ}
    (hk : dl.stored ≤ k) : ∃ wire, (t.send conn k).downloads conn
        = some { dl with position := dl.stored, wire } ∧
      t.partials dl.folder dl.stem ++ wire = stream c source dl.id := by
  have hat := h.download conn dl hdl
  have hposition := hat.position
  have hlength := hat.backed.length
  have hsent : (t.send conn k).downloads conn = some { dl with
      position := dl.position
        + (((t.blobs dl.id).drop dl.position).take (min k (dl.stored - dl.position))).length
      wire := dl.wire ++
        ((t.blobs dl.id).drop dl.position).take (min k (dl.stored - dl.position)) } := by
    unfold DropTransfers.send
    rw [hdl]
    exact Function.update_self conn _ _
  have hend : dl.position
      + (((t.blobs dl.id).drop dl.position).take (min k (dl.stored - dl.position))).length =
        dl.stored := by
    rw [List.length_take, List.length_drop]
    omega
  rw [hend] at hsent
  have hafter := (h.send hdiffer hids conn k).download conn _ hsent
  refine ⟨_, hsent, ?_⟩
  have hall := hafter.sent
  rw [partials_send] at hall
  rw [hall, hat.stored, List.take_length]

/-- All that was sent arrives. -/
theorem received (hdl : t.downloads conn = some dl)
    (hstored : dl.stored = (stream c source dl.id).length)
    (hall : t.partials dl.folder dl.stem ++ dl.wire = stream c source dl.id) {k : ℕ}
    (hk : dl.stored ≤ k) :
    (t.receive conn k).downloads conn = some { dl with wire := [] } ∧
      (t.receive conn k).partials dl.folder dl.stem = stream c source dl.id := by
  have hlengths := congrArg List.length hall
  rw [List.length_append] at hlengths
  have htake : dl.wire.take (min k (dl.stored - (t.partials dl.folder dl.stem).length)) = dl.wire :=
    List.take_of_length_le (by omega)
  unfold DropTransfers.receive
  rw [hdl]
  dsimp only
  rw [htake, hall, List.drop_length]
  exact ⟨Function.update_self conn _ _,
    (partials_setPartial t dl.folder dl.stem _ dl.folder dl.stem).trans (if_pos ⟨rfl, rfl⟩)⟩

/-- A whole partial file is decoded to the file that was put. -/
theorem decoded (hrestores : c.Restores) (hdl : t.downloads conn = some dl)
    (hstored : dl.stored = (stream c source dl.id).length)
    (hwhole : t.partials dl.folder dl.stem = stream c source dl.id) :
    (t.decode c source conn).results = t.results ++ [(dl.id, some (source dl.id).content)] := by
  have hdecode :
      c.decode (c.entry (source dl.id).encoding (source dl.id).content) (stream c source dl.id)
      = some (source dl.id).content := Drop.Codec.decode_stream hrestores _ _
  unfold DropTransfers.decode
  rw [hdl]
  dsimp only
  rw [hwhole, if_neg (by omega), hdecode]
  rfl

/-- A download that is not cut, whatever an earlier one left of it. -/
theorem Delivers.fetched (h : Delivers c source n t) (hdiffer : StemsDiffer source n)
    (hids : t.zone.ids ≤ n) (hrestores : c.Restores)
    (hf : t.zone.files.get? id = some f) (hcomplete : f.complete = true)
    (hready : t.zone.taskOf conn = some .ready) (hnone : t.downloads conn = none)
    (hunlocked : t.locked folder (source id).stem = false) :
    (Run.after (DropTransfers.step c source) t [.fetch conn folder id, .send conn f.stored.toNat,
      .receive conn f.stored.toNat, .decode conn]).results
        = t.results ++ [(id, some (source id).content)] := by
  have hwhole := (h.stored.committed hf hcomplete).1
  have hid : id < n := (h.stored.sound.holds.made id f hf).trans_le hids
  have hfetch : (t.fetch source conn folder id).downloads conn = some
        { folder, id, stem := (source id).stem,
          position := (t.partials folder (source id).stem).length, stored := f.stored.toNat } ∧
      (t.fetch source conn folder id).results = t.results := by
    have hnonneg := h.stored.sound.quota.nonneg id f hf
    have hle := (h.partials folder id hid).length_le
    have hshort : ¬ ((t.partials folder (source id).stem).length : ℤ) > f.stored := by omega
    unfold DropTransfers.fetch
    dsimp only
    rw [if_pos ⟨hready, hnone, hunlocked⟩, hf]
    dsimp only
    rw [if_neg hshort, if_pos hcomplete]
    exact ⟨Function.update_self conn _ _, rfl⟩
  have hsame := @ids_fetch source t conn folder id
  obtain ⟨wire, hsend, hall⟩ :=
    (h.fetch hdiffer hids conn folder id).sent hdiffer (hsame.trans_le hids) hfetch.1 le_rfl
  rw [← partials_send _ conn f.stored.toNat] at hall
  obtain ⟨hreceive, hkept⟩ := received hsend hwhole hall le_rfl
  refine (decoded hrestores hreceive hwhole hkept).trans ?_
  rw [results_receive, results_send, hfetch.2]

/-! ## Runs -/

/-- What a run leads to. -/
def after (c : Drop.Codec) (source : ℕ → DropSource) (limits : DropLimits) (es : List Event) :
    DropTransfers :=
  Run.after (DropTransfers.step c source) { zone := { limits } } es

/-- What is promised of the relay's side. -/
structure StoresStreams (c : Drop.Codec) (source : ℕ → DropSource) (t : DropTransfers) : Prop where
  /-- While no chunk of a file is being copied, what is counted of it is there. -/
  counted : ∀ id f, t.zone.files.get? id = some f →
    (∀ conn n, t.zone.taskOf conn ≠ some (.copying id n)) →
      Backed c source (t.blobs id) id f.stored.toNat
  /-- While one is, what was counted before it is there, and what has landed of it. -/
  copying : ∀ conn id n f, t.zone.taskOf conn = some (.copying id n) →
    t.zone.files.get? id = some f →
    (t.uploads conn).landed ≤ n ∧
      Backed c source (t.blobs id) id (f.stored - n + (t.uploads conn).landed).toNat
  committed : ∀ id f, t.zone.files.get? id = some f → f.complete = true →
    f.stored = (stream c source id).length

theorem Stored.storesStreams (h : Stored c source t) : StoresStreams c source t where
  counted id f hf hcopying := by
    by_cases hwriter : ∃ conn task, t.zone.taskOf conn = some task ∧ task.blob = some id
    · obtain ⟨conn, task, htask, hblob⟩ := hwriter
      refine ((h.writer conn task id f htask hblob hf).settles hblob fun n heq => ?_).1
      exact hcopying conn n (heq ▸ htask)
    · exact (h.settled id f hf fun conn task htask hblob => hwriter ⟨conn, task, htask, hblob⟩).1
  copying conn id n f htask hf := by
    obtain ⟨-, hcopies⟩ := h.writer conn _ id f htask rfl hf
    have hposition := hcopies.position
    have hat : (f.stored - n + (t.uploads conn).landed).toNat = (t.uploads conn).position := by
      omega
    rw [hat]
    exact ⟨hcopies.landed, hcopies.backed⟩
  committed id f hf hcomplete := by
    have hnonneg := h.sound.quota.nonneg id f hf
    have hwhole := (h.committed hf hcomplete).1
    omega

theorem stored_after (limits : DropLimits) (es : List Event) :
    Stored c source (after c source limits es) :=
  Run.invariant (fun _ e h => (h.goes_step e).stored) es (Stored.init limits)

/-- **What the relay counts of a file is the file's**, in every state that any interleaving of
sessions, cuts, resumes and removals reaches. -/
theorem stores_after (c : Drop.Codec) (source : ℕ → DropSource) (limits : DropLimits)
    (es : List Event) :
    StoresStreams c source (after c source limits es) :=
  (stored_after limits es).storesStreams

/-- What is promised of the whole way. -/
structure DeliversFiles (c : Drop.Codec) (source : ℕ → DropSource) (t : DropTransfers) : Prop where
  /-- No download is damaged, and what is saved is what was put. -/
  results : ∀ r ∈ t.results, r.2 = some (source r.1).content
  partials : ∀ folder, ∀ id < t.zone.ids, t.partials folder (source id).stem <+: stream c source id
  /-- From whatever is in a partial file, a download that is not cut comes to the file. -/
  fetched : ∀ conn folder id f, t.zone.files.get? id = some f → f.complete = true →
    t.zone.taskOf conn = some .ready → t.downloads conn = none →
      t.locked folder (source id).stem = false →
      (Run.after (DropTransfers.step c source) t [.fetch conn folder id, .send conn f.stored.toNat,
        .receive conn f.stored.toNat, .decode conn]).results
          = t.results ++ [(id, some (source id).content)]

theorem Delivers.deliversFiles (h : Delivers c source t.zone.ids t) (hrestores : c.Restores)
    (hdiffer : StemsDiffer source t.zone.ids) : DeliversFiles c source t where
  results := h.results
  partials := h.partials
  fetched _ _ _ _ hf hcomplete hready hnone hunlocked :=
    h.fetched hdiffer le_rfl hrestores hf hcomplete hready hnone hunlocked

/-- A run that draws no more than `n` ids. -/
theorem delivers_of_stemsDiffer (hrestores : c.Restores) (hdiffer : StemsDiffer source n)
    (limits : DropLimits) (es : List Event) (hids : (after c source limits es).zone.ids ≤ n) :
    Delivers c source n (after c source limits es) := by
  have h : Stored c source (after c source limits es) ∧
      ((after c source limits es).zone.ids ≤ n → Delivers c source n (after c source limits es)) :=
    Run.invariant
      (I := fun t : DropTransfers => Stored c source t ∧ (t.zone.ids ≤ n → Delivers c source n t))
      (fun t e h => ⟨(h.1.goes_step e).stored, fun hids =>
        have hbefore := (h.1.goes_step e).ids.trans hids
        (h.2 hbefore).step hdiffer hbefore hrestores e⟩)
      es ⟨Stored.init limits, fun _ => Delivers.init limits⟩
  exact h.2 hids

/-- **What is downloaded is what was put**, however often the upload and the download were cut and
resumed, while no two of the files have ids that begin alike. -/
theorem delivers_after (hrestores : c.Restores) (limits : DropLimits) (es : List Event)
    (hdiffer : StemsDiffer source (after c source limits es).zone.ids) :
    DeliversFiles c source (after c source limits es) :=
  (delivers_of_stemsDiffer hrestores hdiffer limits es le_rfl).deliversFiles hrestores hdiffer

/-- A codec that leaves a file as it is. -/
def plainCodec : Drop.Codec where
  compress file := [file]
  decompress := some
  sha256 file := file.take 32

theorem plainCodec_restores : plainCodec.Restores := fun file =>
  congrArg some (List.append_nil file)

def exampleLimits : DropLimits where
  dropBytes := (100 : ℕ)
  dropFileBytes := (100 : ℕ)
  dropFiles := 4
  dropConns := 4
  dropTTL := 1800
  dropBytes_pos := Int.natCast_pos.mpr (Nat.succ_pos 99)
  dropFileBytes_nonneg := Int.natCast_nonneg 100

/-- Two files, with the ids given. -/
def twoFiles (first second : List Char) : ℕ → DropSource
  | 0 => ⟨.zstd, [7, 8, 9], first⟩
  | _ => ⟨.zstd, [4, 5, 6, 1], second⟩

/-- An upload cut in the middle of a chunk and resumed, and a download cut and resumed. -/
def cutTwice : List Event :=
  [.zone (.admitSession 0), .zone (.act 0 (.put true true true)), .zone (.act 0 (.reserve 3 true)),
    .land 0 2, .zone (.act 0 (.copied 1)), .zone (.act 0 .stopWriting),
    .zone (.act 0 (.endSession 5)), .zone (.admitSession 1), .zone (.act 1 (.resume 0)),
    .zone (.act 1 (.reopened true)), .zone (.act 1 (.reserve 2 true)), .land 1 2,
    .zone (.act 1 (.copied 2)), .zone (.act 1 .commit), .zone (.act 1 .stopWriting), .fetch 1 0 0,
    .send 1 2, .receive 1 1, .abort 1, .zone (.act 1 (.endSession 9)), .zone (.admitSession 2),
    .fetch 2 0 0, .send 2 2, .receive 2 9, .decode 2]

/-- Another file put and downloaded before, between the two parts of the first one's download. -/
def between : List Event :=
  cutTwice.take 19 ++
    [.zone (.act 1 (.put true true true)), .zone (.act 1 (.reserve 4 true)), .land 1 4,
      .zone (.act 1 (.copied 4)), .zone (.act 1 .commit), .zone (.act 1 .stopWriting), .fetch 1 0 1,
      .send 1 9, .receive 1 9, .decode 1] ++ cutTwice.drop 19

theorem delivers_after_between :
    (after plainCodec (twoFiles "4f09ac31d2".toList "4f09ac37e8".toList) exampleLimits
        between).results = [(1, some [4, 5, 6, 1]), (0, some [7, 8, 9])] ∧
      DeliversFiles plainCodec (twoFiles "4f09ac31d2".toList "4f09ac37e8".toList)
        (after plainCodec (twoFiles "4f09ac31d2".toList "4f09ac37e8".toList) exampleLimits
          between) :=
  ⟨by decide +kernel, delivers_after plainCodec_restores exampleLimits between
    (by rw [StemsDiffer]; decide +kernel)⟩

/-- Ids that begin alike share the partial file, and the second file is found damaged. -/
theorem after_between_sharedStem :
    (after plainCodec (twoFiles "4f09ac31d2".toList "4f09ac31e8".toList) exampleLimits
      between).results = [(1, none)] := by
  decide +kernel

end DropTransfers
