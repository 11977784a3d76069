import IGhostVT.Relay.DropDelivery

/-!
# Relay/DropReads — what a get sends, and what is saved of it

A get of a committed file reads its blob from whatever offset it was asked for, a slice at a time
(`Reads`), and sends the stream from there on whatever else goes on in the zone (`Reads.sends`).
What a download saves was checked first (`Checked`), also where it went on from another file's
bytes.
-/

open Relay

namespace DropTransfers

open DropZone

variable {c : Drop.Codec} {source : ℕ → DropSource} {t : DropTransfers} {id conn : ℕ}
  {dl : DropDownload}

/-! ## What is saved

The length and the checksum are those of the file's row. -/

/-- What is saved has the length and the checksum of the file that was put. -/
def Checked (c : Drop.Codec) (source : ℕ → DropSource) (t : DropTransfers) : Prop :=
  ∀ r ∈ t.results, ∀ bytes, r.2 = some bytes →
    bytes.length = (source r.1).content.length ∧ c.sha256 bytes = c.sha256 (source r.1).content

/-- Only what passes the check is saved. -/
theorem Checked.decode (h : Checked c source t) (conn : ℕ) :
    Checked c source (t.decode c source conn) := by
  unfold DropTransfers.decode
  split
  · exact h
  next dl _ =>
    dsimp only
    split
    · exact h
    · intro r hr bytes hbytes
      rcases List.mem_append.mp hr with hr | hr
      · exact h r hr bytes hbytes
      · obtain rfl := List.mem_singleton.mp hr
        exact Drop.Codec.of_decode hbytes

theorem Checked.step (h : Checked c source t) (e : Event) :
    Checked c source (t.step c source e) := by
  have hstays : ∀ {t' : DropTransfers}, t'.results = t.results → Checked c source t' :=
    fun hsame r hr => h r (hsame ▸ hr)
  cases e with
  | zone event => exact hstays (sameDownloads_zoneStep t event).results
  | land conn k => exact hstays (sameDownloads_land t conn k).results
  | fetch conn folder id =>
    refine hstays ?_
    change (t.fetch source conn folder id).results = _
    unfold fetch
    dsimp only
    split
    · split
      · rfl
      · split <;> rfl
    · rfl
  | send conn k => exact hstays (results_send t conn k)
  | receive conn k => exact hstays (results_receive t conn k)
  | abort conn =>
    refine hstays ?_
    change (t.abort conn).results = _
    unfold abort
    split <;> rfl
  | decode conn => exact h.decode conn

/-! ## What a get sends

`get` reads on from where it is, whatever else goes on in the zone. -/

/-- What an event sends of a connection's get. -/
def handed (conn : ℕ) (t : DropTransfers) : Event → List UInt8
  | .send conn' k =>
    match t.downloads conn with
    | some dl =>
      if conn' = conn then
        ((t.blobs dl.id).drop dl.position).take (min k (dl.stored - dl.position))
      else []
    | none => []
  | _ => []

/-- What a run sends of it. -/
def sent (c : Drop.Codec) (source : ℕ → DropSource) (conn : ℕ) : DropTransfers → List Event →
    List UInt8
  | _, [] => []
  | t, e :: es => t.handed conn e ++ sent c source conn (t.step c source e) es

/-- The connection is lost, or done with its get. -/
def Event.EndsGet (conn : ℕ) : Event → Prop
  | .abort conn' => conn' = conn
  | .decode conn' => conn' = conn
  | _ => False

/-- A get of a committed file is at an offset of its stream. -/
structure Reads (c : Drop.Codec) (source : ℕ → DropSource) (t : DropTransfers)
    (conn id offset : ℕ) : Prop where
  stored : Stored c source t
  isSealed : Sealed t.zone id
  backed : Backed c source (t.blobs id) id (stream c source id).length
  download : ∃ dl, t.downloads conn = some dl ∧ dl.id = id ∧
    dl.stored = (stream c source id).length ∧ dl.position = offset ∧ offset ≤ dl.stored

/-- A connection that gets a file asks for no other. -/
theorem downloads_fetch (hdl : t.downloads conn = some dl) (conn' folder id : ℕ) :
    (t.fetch source conn' folder id).downloads conn = some dl := by
  unfold fetch
  dsimp only
  split
  case isFalse => exact hdl
  case isTrue hfree =>
    have hne : conn ≠ conn' := by
      rintro rfl
      cases hdl.symm.trans hfree.2.1
    split
    · exact hdl
    · split
      exacts [(Function.update_of_ne hne _ _).trans hdl, hdl]

/-- What is handed out goes onto the wire. -/
theorem downloads_send (hdl : t.downloads conn = some dl) (k : ℕ) :
    (t.send conn k).downloads conn = some
      { dl with
        position := dl.position + (t.handed conn (.send conn k)).length
        wire := dl.wire ++ t.handed conn (.send conn k) } := by
  rw [handed, hdl]
  dsimp only
  rw [if_pos rfl, send, hdl]
  exact Function.update_self conn _ _

/-- Where a get is after an event that does not end it. -/
theorem downloads_step (hdl : t.downloads conn = some dl) {e : Event} (hgoes : ¬ e.EndsGet conn) :
    ∃ dl', (t.step c source e).downloads conn = some dl' ∧ dl'.id = dl.id ∧
      dl'.stored = dl.stored ∧ dl'.position = dl.position + (t.handed conn e).length := by
  cases e with
  | zone event => exact ⟨dl, (sameDownloads_zoneStep t event).downloads ▸ hdl, rfl, rfl, rfl⟩
  | land conn' k => exact ⟨dl, (sameDownloads_land t conn' k).downloads ▸ hdl, rfl, rfl, rfl⟩
  | fetch conn' folder id => exact ⟨dl, downloads_fetch hdl conn' folder id, rfl, rfl, rfl⟩
  | send conn' k =>
    change ∃ dl', (t.send conn' k).downloads conn = _ ∧ _
    by_cases heq : conn' = conn
    · subst heq
      exact ⟨_, downloads_send hdl k, rfl, rfl, rfl⟩
    · have hnone : t.handed conn (.send conn' k) = [] := by
        rw [handed, hdl]
        exact if_neg heq
      rw [hnone, send]
      refine ⟨dl, ?_, rfl, rfl, rfl⟩
      split
      exacts [hdl, (Function.update_of_ne (Ne.symm heq) _ _).trans hdl]
  | receive conn' k =>
    change ∃ dl', (t.receive conn' k).downloads conn = _ ∧ _
    rw [receive]
    by_cases heq : conn' = conn
    · subst heq
      rw [hdl]
      exact ⟨_, Function.update_self conn' _ _, rfl, rfl, rfl⟩
    · refine ⟨dl, ?_, rfl, rfl, rfl⟩
      split
      exacts [hdl, (Function.update_of_ne (Ne.symm heq) _ _).trans hdl]
  | abort conn' =>
    change ∃ dl', (t.abort conn').downloads conn = _ ∧ _
    rw [abort]
    refine ⟨dl, ?_, rfl, rfl, rfl⟩
    split
    exacts [hdl, (Function.update_of_ne (Ne.symm hgoes) _ _).trans hdl]
  | decode conn' =>
    change ∃ dl', (t.decode c source conn').downloads conn = _ ∧ _
    rw [decode]
    refine ⟨dl, ?_, rfl, rfl, rfl⟩
    split
    · exact hdl
    · dsimp only
      split
      exacts [hdl, (Function.update_of_ne (Ne.symm hgoes) _ _).trans hdl]

variable {offset : ℕ}

/-- A send hands out what is next of the stream. -/
theorem Reads.handed_send (h : Reads c source t conn id offset) (k : ℕ) :
    t.handed conn (.send conn k) = ((stream c source id).drop offset).take
      (min k ((stream c source id).length - offset)) := by
  obtain ⟨dl, hdl, rfl, hstored, rfl, -⟩ := h.download
  rw [handed, hdl]
  dsimp only
  rw [if_pos rfl, hstored, h.backed.slice]

theorem Reads.handed_prefix (h : Reads c source t conn id offset) (e : Event) :
    t.handed conn e <+: (stream c source id).drop offset := by
  cases e with
  | send conn' k =>
    by_cases heq : conn' = conn
    · rw [heq, h.handed_send]
      exact List.take_prefix _ _
    · obtain ⟨dl, hdl, -⟩ := h.download
      rw [handed, hdl]
      dsimp only
      rw [if_neg heq]
      exact List.nil_prefix
  | _ => exact List.nil_prefix

/-- An event hands out the stream's next bytes, or none. -/
theorem Reads.step (h : Reads c source t conn id offset) {e : Event} (hgoes : ¬ e.EndsGet conn) :
    Reads c source (t.step c source e) conn id (offset + (t.handed conn e).length) ∧
      t.handed conn e = ((stream c source id).drop offset).take (t.handed conn e).length := by
  obtain ⟨dl, hdl, rfl, hstored, rfl, hle⟩ := h.download
  have hstep := h.stored.goes_step e
  obtain ⟨hsealed, hblob⟩ := hstep.isSealed dl.id h.isSealed
  obtain ⟨dl', hdl', hid, hsame, hposition⟩ := downloads_step hdl hgoes
  have hhanded : t.handed conn e
      = ((stream c source dl.id).drop dl.position).take (t.handed conn e).length :=
    List.prefix_iff_eq_take.mp (h.handed_prefix e)
  refine ⟨⟨hstep.stored, hsealed, hblob ▸ h.backed, dl', hdl', hid, hsame.trans hstored, hposition,
    ?_⟩, hhanded⟩
  have hlength := congrArg List.length hhanded
  rw [List.length_take, List.length_drop] at hlength
  omega

/-- A run hands out the stream in order, whatever else happens in it. -/
theorem Reads.run : ∀ (es : List Event) {t : DropTransfers} {offset : ℕ},
    Reads c source t conn id offset → (∀ e ∈ es, ¬ e.EndsGet conn) →
      Reads c source (Run.after (DropTransfers.step c source) t es) conn id
        (offset + (sent c source conn t es).length) ∧
      sent c source conn t es
        = ((stream c source id).drop offset).take (sent c source conn t es).length
  | [], _, _, h, _ => ⟨h, rfl⟩
  | e :: es, t, offset, h, hgoes => by
    obtain ⟨hnext, hhanded⟩ := h.step (hgoes e List.mem_cons_self)
    obtain ⟨hafter, hsent⟩ := hnext.run es fun e' he' => hgoes e' (List.mem_cons_of_mem _ he')
    rw [sent, List.length_append, ← Nat.add_assoc]
    refine ⟨hafter, ?_⟩
    rw [List.take_add, ← hhanded, List.drop_drop, ← hsent]

theorem sent_concat (e : Event) : ∀ (es : List Event) (t : DropTransfers),
    sent c source conn t (es ++ [e]) = sent c source conn t es
      ++ (Run.after (DropTransfers.step c source) t es).handed conn e
  | [], t => List.append_nil (t.handed conn e)
  | e' :: es, t => by
    rw [List.cons_append, sent, sent_concat e es, sent, List.append_assoc]
    rfl

/-- **A get sends the stream from its offset on**, and all of it if it is not ended before. -/
theorem Reads.sends (h : Reads c source t conn id offset) (es : List Event)
    (hgoes : ∀ e ∈ es, ¬ e.EndsGet conn) :
    sent c source conn t es <+: (stream c source id).drop offset ∧
      ∀ k, (stream c source id).length ≤ k →
        sent c source conn t (es ++ [.send conn k]) = (stream c source id).drop offset := by
  obtain ⟨hafter, hsent⟩ := h.run es hgoes
  refine ⟨List.prefix_iff_eq_take.mpr hsent, fun k hk => ?_⟩
  rw [sent_concat, hafter.handed_send, Nat.min_eq_right ((Nat.sub_le _ _).trans hk),
    ← List.length_drop, List.take_length, ← List.drop_drop]
  conv_rhs => rw [← List.take_append_drop (sent c source conn t es).length
    ((stream c source id).drop offset), ← hsent]

end DropTransfers
