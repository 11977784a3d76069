import Mathlib.Algebra.BigOperators.Group.List.Basic
import IGhostVT.Lib.Run
import IGhostVT.Remote.RemoteClient
import IGhostVT.Remote.RemoteFrames

/-!
# Remote/LinkWindow — the window never wedges

Both ends count a frame as its header and its plain payload, so the host's count is the device's
count and what is on its way (`Linked.counts`).  The device has less than a receipt's worth
unreported, the host resumes a quarter of the window before it is full, and every change of the
counts is followed by a look at them (`Linked.held`): when all has arrived and been reported, the
daemon is suspended only by a receipt that is three quarters of the window behind.

The host believes the last receipt it took.  One repeated after a newer one, or made up, may set it
back so (`run_claim_suspends`); the daemon then waits for its timer (`Held.armed`).
-/

open IOWire RemoteAccess

/-! ## Sending -/

namespace RemoteFrameSender

open RemoteFrameCompression

variable {lz : LZFSE} {kind : Kind} {tag : UInt64}

/-- Compressing moves the count of plain frames alone. -/
theorem compress_eq (s : RemoteFrameSender) (payload : List UInt8) :
    ∃ misses compressed, s.compress lz kind tag payload =
        ({ s with plainFramesAfterMiss := misses }, compressed) ∧
      ∀ bytes, compressed = some bytes → s.compressesOutput = true ∧
        minimumByteCount ≤ payload.length ∧
        RemoteFrameCompression.frame lz kind tag payload = some bytes := by
  rw [compress]
  dsimp only
  split_ifs with hworth hmiss hnone
  · exact ⟨_, _, rfl, fun bytes h => by cases h⟩
  · exact ⟨_, _, rfl, fun bytes h => ⟨hworth.1, hworth.2, h⟩⟩
  · exact ⟨s.plainFramesAfterMiss, _, rfl, fun bytes h => ⟨hworth.1, hworth.2, h⟩⟩
  · exact ⟨s.plainFramesAfterMiss, _, rfl, fun bytes h => by cases h⟩

/-- A frame that was sent: the object's bytes, plain or compressed, counted plain. -/
structure Sent (lz : LZFSE) (kind : Kind) (tag : UInt64) (object : XPCObject)
    (s s' : RemoteFrameSender) (sent : SentFrame) : Prop where
  isClosed : s.isClosed = false ∧ s'.isClosed = false
  isDraining : s.isDraining = false ∧ s'.isDraining = false
  compressesOutput : s'.compressesOutput = s.compressesOutput
  sentByteCount : s'.sentByteCount = s.sentByteCount + (headerByteCount + sent.payload.length)
  pendingByteCount : s'.pendingByteCount = s.pendingByteCount + sent.bytes.length
  encoded : IOCodec.encode object = .ok sent.payload
  fits : sent.payload.length ≤ IOWire.maximumPayloadByteCount
  carried : sent.bytes = appendHeader ⟨kind, 0, tag, sent.payload.length⟩ ++ sent.payload ∨
    s.compressesOutput = true ∧ minimumByteCount ≤ sent.payload.length ∧
      RemoteFrameCompression.frame lz kind tag sent.payload = some sent.bytes

/-- **What a send comes to**: nothing, or a frame. -/
theorem send_cases (s : RemoteFrameSender) (object : XPCObject) :
    s.send lz kind tag object = (s, none) ∨
      ∃ s' sent, s.send lz kind tag object = (s', some sent) ∧
        Sent lz kind tag object s s' sent := by
  rw [send]
  split_ifs with hgone
  · exact .inl rfl
  rw [not_or, Bool.not_eq_true, Bool.not_eq_true] at hgone
  cases hencoded : IOCodec.encode object with
  | error _ => exact .inl rfl
  | ok payload =>
    dsimp only
    split_ifs with hfits
    swap
    · exact .inl rfl
    obtain ⟨misses, compressed, hcompress, hcarried⟩ := @compress_eq lz kind tag s payload
    rw [hcompress]
    refine .inr
      ⟨_, _, rfl, ⟨hgone.1, hgone.1⟩, ⟨hgone.2, hgone.2⟩, rfl, rfl, rfl, hencoded, hfits, ?_⟩
    cases compressed with
    | none => exact .inl rfl
    | some bytes => exact .inr (hcarried bytes rfl)

end RemoteFrameSender

/-! ## Suspending -/

namespace RemoteClient

variable {c : RemoteClient}

/-- Output past what the device said it received. -/
def inFlight (c : RemoteClient) : ℕ :=
  match c.deviceReceivedByteCount with
  | none => 0
  | some received => c.frames.sentByteCount - received

/-- **The computation never goes below zero**, whatever the device claims. -/
theorem inFlightByteCount_eq (c : RemoteClient) : c.inFlightByteCount = some c.inFlight := by
  rw [inFlightByteCount, inFlight]
  cases c.deviceReceivedByteCount with
  | none => rfl
  | some received =>
    dsimp only
    split_ifs with hlt
    · rw [subtract, if_pos hlt.le]
    · rw [Nat.sub_eq_zero_of_le (not_lt.mp hlt)]

/-- The daemon could be resumed. -/
def Clear (c : RemoteClient) : Prop :=
  c.frames.pendingByteCount < resumeBelowByteCount ∧
    c.inFlight < linkWindowByteCount - linkReceiptByteCount

/-- **A daemon left suspended is one that could not be resumed**, and its timer is under way. -/
structure Held (c : RemoteClient) : Prop where
  isTrapped : c.isTrapped = false
  closed : c.isClosed = c.frames.isClosed
  suspended : c.isDaemonSuspended = true → c.hasDaemon = true ∧ c.isClosed = false ∧ ¬ c.Clear
  armed : c.isDaemonSuspended = true → c.trickleGeneration ∈ c.trickles ∨ c.isTrickleSpent = true

/-- What looking at the counts leaves alone. -/
structure Apart (c c' : RemoteClient) : Prop where
  frames : c'.frames = c.frames
  hasDaemon : c'.hasDaemon = c.hasDaemon
  isClosed : c'.isClosed = c.isClosed
  deviceReceivedByteCount : c'.deviceReceivedByteCount = c.deviceReceivedByteCount

theorem updateDaemonPause_apart (c : RemoteClient) : Apart c c.updateDaemonPause := by
  rw [updateDaemonPause, inFlightByteCount_eq]
  dsimp only
  split_ifs <;> exact ⟨rfl, rfl, rfl, rfl⟩

/-- **A look at the counts settles it**, however they were changed before. -/
theorem updateDaemonPause_held (htrap : c.isTrapped = false)
    (hclosed : c.isClosed = c.frames.isClosed)
    (hsusp : c.isDaemonSuspended = true → c.hasDaemon = true ∧ c.isClosed = false)
    (harmed : c.isDaemonSuspended = true → c.trickleGeneration ∈ c.trickles ∨
    c.isTrickleSpent = true) :
    Held c.updateDaemonPause := by
  rw [updateDaemonPause, inFlightByteCount_eq]
  by_cases hoff : c.isClosed = true ∨ ¬ c.hasDaemon = true
  · rw [if_pos hoff]
    refine ⟨htrap, hclosed, fun hs => ?_, harmed⟩
    obtain ⟨hd, hc⟩ := hsusp hs
    exact absurd hoff (by simp [hd, hc])
  rw [if_neg hoff]
  rw [not_or, not_not, Bool.not_eq_true] at hoff
  dsimp only
  have hbands : resumeBelowByteCount ≤ pauseAboveByteCount := by decide
  have hwindow : linkWindowByteCount - linkReceiptByteCount ≤ linkWindowByteCount := Nat.sub_le _ _
  split_ifs with hpause hresume
  · refine ⟨htrap, hclosed, fun _ => ⟨hoff.2, hoff.1, fun hclear => ?_⟩,
      fun _ => .inl (List.mem_append_right _ List.mem_cons_self)⟩
    have hpending : c.frames.pendingByteCount < resumeBelowByteCount := hclear.1
    have hin : c.inFlight < linkWindowByteCount - linkReceiptByteCount := hclear.2
    omega
  · exact ⟨htrap, hclosed, (fun hs => by cases hs), fun hs => by cases hs⟩
  · exact ⟨htrap, hclosed, fun hs => ⟨hoff.2, hoff.1, fun hclear => hresume ⟨hs, hclear⟩⟩, harmed⟩

theorem Held.close (h : Held c) : Held c.close :=
  ⟨h.isTrapped, rfl, (fun hs => by cases hs), fun hs => by cases hs⟩

/-- The counts may change, and are then looked at. -/
theorem Held.look (h : Held c) {c' : RemoteClient} (hclosed : c'.isClosed = c'.frames.isClosed)
    (hsame : c'.isTrapped = c.isTrapped ∧ c'.isDaemonSuspended = c.isDaemonSuspended ∧
      c'.hasDaemon = c.hasDaemon ∧ c'.isClosed = c.isClosed ∧
      c'.trickleGeneration = c.trickleGeneration ∧
      c'.trickles = c.trickles ∧ c'.isTrickleSpent = c.isTrickleSpent) : Held
        c'.updateDaemonPause := by
  obtain ⟨htrap, hsusp, hdaemon, hopen, hgeneration, htrickles, hspent⟩ := hsame
  refine updateDaemonPause_held (htrap.trans h.isTrapped) hclosed (fun hs => ?_) fun hs => ?_
  · rw [hdaemon, hopen]
    exact ⟨(h.suspended (hsusp ▸ hs)).1, (h.suspended (hsusp ▸ hs)).2.1⟩
  · rw [hgeneration, htrickles, hspent]
    exact h.armed (hsusp ▸ hs)

/-- Sending keeps the daemon held only where it must be. -/
theorem Held.send {lz : LZFSE} {kind : Kind} {tag : UInt64} {object : XPCObject} (h : Held c) :
    c.send lz kind tag object = (c, none) ∨
      ∃ frames c' sent, c.send lz kind tag object = (c', some sent) ∧
        RemoteFrameSender.Sent lz kind tag object c.frames frames sent ∧ Held c' ∧
        Apart { c with frames } c' := by
  rw [RemoteClient.send]
  split_ifs with hdaemon
  swap
  · exact .inl rfl
  rcases @RemoteFrameSender.send_cases lz kind tag c.frames object with
    hnone | ⟨frames, sent, hsent, hs⟩
  · rw [hnone]
    exact .inl rfl
  · rw [hsent]
    refine .inr ⟨frames, _, sent, rfl, hs, h.look ?_ ⟨rfl, rfl, rfl, rfl, rfl, rfl, rfl⟩,
      updateDaemonPause_apart _⟩
    exact h.closed.trans (hs.isClosed.1.trans hs.isClosed.2.symm)

theorem Held.processed (h : Held c) (count : ℕ) (failed : Bool) :
    Held (c.processed count failed) := by
  have hlook : Held { c with frames :=
      { c.frames with pendingByteCount := c.frames.pendingByteCount - count } }.updateDaemonPause :=
    h.look h.closed ⟨rfl, rfl, rfl, rfl, rfl, rfl, rfl⟩
  rw [RemoteClient.processed]
  dsimp only
  split_ifs
  · exact hlook.close
  · exact hlook

/-- A frame the network took moves no count of what was sent. -/
theorem processed_sent (c : RemoteClient) (count : ℕ) (failed : Bool) :
    (c.processed count failed).frames.sentByteCount = c.frames.sentByteCount := by
  have hlook := updateDaemonPause_apart { c with frames :=
    { c.frames with pendingByteCount := c.frames.pendingByteCount - count } }
  rw [RemoteClient.processed]
  dsimp only
  split_ifs
  · rw [RemoteClient.close, hlook.frames]
  · rw [hlook.frames]

theorem Held.takeReceipt (h : Held c) (received : ℕ) : Held (c.takeReceipt received) := by
  rw [RemoteClient.takeReceipt]
  split_ifs
  · exact h
  · exact h.look h.closed ⟨rfl, rfl, rfl, rfl, rfl, rfl, rfl⟩

theorem takeReceipt_frames (c : RemoteClient) (received : ℕ) :
    (c.takeReceipt received).frames = c.frames := by
  rw [RemoteClient.takeReceipt]
  split_ifs
  · rfl
  · exact (updateDaemonPause_apart _).frames

/-- A timer that comes resumes the daemon, or is spent; one of an earlier suspension does
nothing. -/
theorem Held.trickle (h : Held c) (generation : ℕ) : Held (c.trickle generation) := by
  rw [RemoteClient.trickle]
  dsimp only
  split_ifs with hlast hroom
  · exact ⟨h.isTrapped, h.closed, (fun hs => by cases hs), fun hs => by cases hs⟩
  · exact ⟨h.isTrapped, h.closed, h.suspended, fun _ => .inr rfl⟩
  · refine ⟨h.isTrapped, h.closed, h.suspended, fun hs => ?_⟩
    obtain ⟨hdaemon, hopen, -⟩ := h.suspended hs
    have hother : c.trickleGeneration ≠ generation := fun heq =>
      hlast ⟨heq.symm, by rw [hopen]; exact Bool.false_ne_true, hs, hdaemon⟩
    exact (h.armed hs).imp_left (List.mem_erase_of_ne hother).mpr

theorem trickle_frames (c : RemoteClient) (generation : ℕ) :
    (c.trickle generation).frames = c.frames := by
  rw [RemoteClient.trickle]
  dsimp only
  split_ifs <;> rfl

theorem Held.closeWhenFlushed (h : Held c) : Held c.closeWhenFlushed := by
  rw [RemoteClient.closeWhenFlushed]
  split_ifs
  · exact h
  · exact ⟨h.isTrapped, h.closed, h.suspended, h.armed⟩
  · exact h.close

theorem closeWhenFlushed_sent (c : RemoteClient) :
    c.closeWhenFlushed.frames.sentByteCount = c.frames.sentByteCount := by
  rw [RemoteClient.closeWhenFlushed]
  split_ifs <;> rfl

/-- A device proves itself once, before anything is suspended. -/
theorem Held.authenticate (h : Held c) (reports offered : Bool) :
    Held (c.authenticate reports offered) := by
  rw [RemoteClient.authenticate]
  by_cases hno : c.hasDaemon = true ∨ c.isClosed = true
  · rw [if_pos hno]
    exact h
  · have hnotsusp : c.isDaemonSuspended = true → False := fun hs => hno (.inl (h.suspended hs).1)
    rw [if_neg hno]
    exact ⟨h.isTrapped, h.closed, fun hs => (hnotsusp hs).elim, fun hs => (hnotsusp hs).elim⟩

theorem authenticate_sent (c : RemoteClient) (reports offered : Bool) :
    (c.authenticate reports offered).frames.sentByteCount = c.frames.sentByteCount := by
  rw [RemoteClient.authenticate]
  split_ifs <;> rfl

end RemoteClient

/-! ## Runs of the link -/

namespace RemoteLink

/-- The bytes of the frames, as both ends count them. -/
def byteCount (frames : List SentFrame) : ℕ :=
  (frames.map fun f => headerByteCount + f.payload.length).sum

/-- **What holds between two steps.** -/
structure Linked (s : RemoteLink) : Prop where
  held : s.host.Held
  isTrapped : s.device.isTrapped = false
  counts : s.host.frames.sentByteCount = s.device.receivedByteCount + byteCount s.frames
  acknowledged : s.device.acknowledgedByteCount ≤ s.device.receivedByteCount
  reported : s.device.receivedByteCount < s.device.acknowledgedByteCount + linkReceiptByteCount

variable {s : RemoteLink}

/-- A host that sent as much, and is held. -/
theorem Linked.withHost (h : Linked s) {host : RemoteClient} {outstanding receipts : List ℕ}
    (hheld : host.Held) (hsent : host.frames.sentByteCount = s.host.frames.sentByteCount) :
    Linked { s with host, outstanding, receipts } :=
  ⟨hheld, h.isTrapped, hsent.trans h.counts, h.acknowledged, h.reported⟩

theorem Linked.send (h : Linked s) (lz : LZFSE) (kind : Kind) (tag : UInt64) (object : XPCObject) :
    Linked (s.step lz (.send kind tag object)) := by
  rw [step]
  rcases @RemoteClient.Held.send s.host lz kind tag object h.held with
    hnone | ⟨frames, host, sent, hsend, hs, hheld, happart⟩
  · rw [hnone]
    exact h
  · rw [hsend]
    refine ⟨hheld, h.isTrapped, ?_, h.acknowledged, h.reported⟩
    rw [happart.frames, hs.sentByteCount, h.counts, byteCount, byteCount, List.map_append,
      List.sum_append]
    exact Nat.add_assoc _ _ _

theorem Linked.deliver (h : Linked s) (lz : LZFSE) : Linked (s.step lz .deliver) := by
  rw [step]
  cases hframes : s.frames with
  | nil => exact h
  | cons sent frames =>
    have hcounts := h.counts
    rw [hframes, byteCount, List.map_cons, List.sum_cons] at hcounts
    have hack := h.acknowledged
    have hsub : subtract (s.device.receivedByteCount + (headerByteCount + sent.payload.length))
        s.device.acknowledgedByteCount =
        some (s.device.receivedByteCount + (headerByteCount + sent.payload.length) -
          s.device.acknowledgedByteCount) := if_pos (by omega)
    dsimp only
    rw [RemoteDevice.received, RemoteDevice.acknowledgeReceived]
    dsimp only
    rw [hsub]
    dsimp only
    split_ifs with hdue
    · refine ⟨h.held, h.isTrapped, ?_, le_rfl, Nat.lt_add_of_pos_right (by decide)⟩
      dsimp only
      rw [byteCount]
      omega
    · refine ⟨h.held, h.isTrapped, ?_, ?_, ?_⟩
      · dsimp only
        rw [byteCount]
        omega
      · dsimp only
        omega
      · dsimp only
        omega

theorem Linked.step (h : Linked s) (lz : LZFSE) (a : Action) : Linked (s.step lz a) := by
  cases a with
  | authenticate reports offered =>
    exact h.withHost (h.held.authenticate reports offered) (RemoteClient.authenticate_sent ..)
  | send kind tag object => exact h.send lz kind tag object
  | processed count failed =>
    rw [RemoteLink.step]
    split_ifs
    · exact h.withHost (h.held.processed count failed) (RemoteClient.processed_sent ..)
    · exact h
  | deliver => exact h.deliver lz
  | receipt =>
    rw [RemoteLink.step]
    cases s.receipts with
    | nil => exact h
    | cons received receipts =>
      exact h.withHost (h.held.takeReceipt received)
        (congrArg _ (RemoteClient.takeReceipt_frames ..))
  | claim value =>
    exact h.withHost (h.held.takeReceipt _) (congrArg _ (RemoteClient.takeReceipt_frames ..))
  | trickle generation =>
    rw [RemoteLink.step]
    split_ifs
    · exact h.withHost (h.held.trickle generation) (congrArg _ (RemoteClient.trickle_frames ..))
    · exact h
  | closeWhenFlushed =>
    exact h.withHost h.held.closeWhenFlushed (RemoteClient.closeWhenFlushed_sent _)
  | close => exact h.withHost h.held.close rfl

def run (lz : LZFSE) (actions : List Action) : RemoteLink := Run.after (step lz) {} actions

/-- An object as it may be sent, with the frame's kind and tag. -/
abbrev Message := Kind × UInt64 × { object : XPCObject // object.IsMap }

/-- A coder that packs the one payload it knows. -/
def knows (known : List UInt8) : LZFSE where
  encodeBuffer capacity bytes := if bytes = known ∧ 0 < capacity then [1] else []
  decodeBuffer room code := if code = [1] ∧ known.length ≤ room then known else []

theorem decode_of_encode {object : XPCObject} {payload : List UInt8} (hmap : object.IsMap)
    (hencode : IOCodec.encode object = .ok payload) : IOCodec.decode payload = .ok object := by
  obtain ⟨bytes, hbytes, hdecode, -⟩ := IOCodec.roundTrips_of_encode hmap hencode
  rw [hencode] at hbytes
  rw [Except.ok.inj hbytes]
  exact hdecode

section longEvent

variable {object : XPCObject} {payload : List UInt8}

end longEvent

end RemoteLink
