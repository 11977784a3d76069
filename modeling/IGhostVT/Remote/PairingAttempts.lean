import IGhostVT.Remote.HandshakeSlots

/-!
# Remote/PairingAttempts — how many guesses a pairing code is good for

Every confirmation the host gives out is an attempt of the window it was given out in, and a window
whose attempts are spent lets no more begin (`PairingWindow.Sound`).  The active client is always a
client that is pairing, with an exchange begun in that very window (`Kept`), so whoever pairs a
device is that client.

Finishing looks at the active client and at the confirmation, and not at the clock: what verifies
past the window's end is stored all the same.  `InTime` is the step that is not one of these.
-/

open RemoteAccess

namespace RemoteService

variable {P : PairingExchange} {s s' : RemoteService P} {id : ℕ}

/-! ## The window

Each path has attempts of its own, and an attempt counts for the path of the client it was given
to. -/

/-- The confirmations given out for the code of a window, on a path. -/
def tally (s : RemoteService P) (window : ℕ) (viaRelay : Bool) : ℕ :=
  s.confirmations.countP fun c => c.window == window && c.viaRelay == viaRelay

/-- The window has counted `given` confirmations on each path, and has an attempt left on each path
that is open, unless the last is the one in progress. -/
structure PairingWindow.Sound (window : PairingWindow) (given : Bool → ℕ) : Prop where
  localCount : given false ≤ window.attemptsUsed
  relayCount : given true ≤ window.relayAttemptsUsed
  localRoom : window.attemptsUsed < pairingAttemptLimit ∨
    (window.attemptsUsed = pairingAttemptLimit ∧ window.activeClient ≠ none ∧
      window.activeClientViaRelay = false)
  relayRoom : window.allowsRelay = true → window.relayAttemptsUsed < pairingAttemptLimit ∨
    (window.relayAttemptsUsed = pairingAttemptLimit ∧ window.activeClient ≠ none ∧
      window.activeClientViaRelay = true)
  relayLimit : window.relayAttemptsUsed ≤ pairingAttemptLimit

/-- A sound window gave each path no more than the limit. -/
theorem PairingWindow.Sound.limit {window : PairingWindow} {given : Bool → ℕ}
    (h : window.Sound given) (viaRelay : Bool) : given viaRelay ≤ pairingAttemptLimit := by
  cases viaRelay with
  | false =>
    have hcount := h.localCount
    rcases h.localRoom with hroom | ⟨hroom, -, -⟩ <;> omega
  | true => exact h.relayCount.trans h.relayLimit

/-- An attempt that may begin, on a path that then has given one confirmation more at most. -/
theorem PairingWindow.Sound.spend {window : PairingWindow} {given given' : Bool → ℕ}
    (h : window.Sound given) (hactive : window.activeClient = none) {viaRelay : Bool}
    (hallows : viaRelay = true → window.allowsRelay = true) (id : ℕ)
    (hgiven : ∀ path, given' path ≤ given path + if viaRelay = path then 1 else 0) :
    (window.spend id viaRelay).Sound given' := by
  have hlocal := h.localRoom.resolve_right fun hspent => hspent.2.1 hactive
  have hrelay : window.allowsRelay = true → window.relayAttemptsUsed < pairingAttemptLimit :=
    fun hopen => (h.relayRoom hopen).resolve_right fun hspent => hspent.2.1 hactive
  have hfalse := hgiven false
  have htrue := hgiven true
  have hcount := h.localCount
  have hcount' := h.relayCount
  have hlimit := h.relayLimit
  cases viaRelay with
  | false =>
    simp only [if_true, Bool.false_eq_true, if_false] at hfalse htrue
    refine ⟨?_, ?_, ?_, fun hopen => .inl (hrelay hopen), hlimit⟩
    · change given' false ≤ window.attemptsUsed + 1
      omega
    · change given' true ≤ window.relayAttemptsUsed
      omega
    · change window.attemptsUsed + 1 < pairingAttemptLimit ∨
        (window.attemptsUsed + 1 = pairingAttemptLimit ∧ some id ≠ none ∧ false = false)
      rcases Nat.lt_or_eq_of_le (Nat.succ_le_of_lt hlocal) with hlt | heq
      · exact .inl hlt
      · exact .inr ⟨heq, Option.some_ne_none id, rfl⟩
  | true =>
    simp only [if_true, Bool.true_eq_false, if_false] at hfalse htrue
    have hroom := hrelay (hallows rfl)
    refine ⟨?_, ?_, .inl hlocal, fun _ => ?_, hroom⟩
    · change given' false ≤ window.attemptsUsed
      omega
    · change given' true ≤ window.relayAttemptsUsed + 1
      omega
    · change window.relayAttemptsUsed + 1 < pairingAttemptLimit ∨
        (window.relayAttemptsUsed + 1 = pairingAttemptLimit ∧ some id ≠ none ∧ true = true)
      rcases Nat.lt_or_eq_of_le (Nat.succ_le_of_lt hroom) with hlt | heq
      · exact .inl hlt
      · exact .inr ⟨heq, Option.some_ne_none id, rfl⟩

/-- An attempt belongs to the client that began it. -/
@[simp] theorem PairingWindow.spend_activeClient (window : PairingWindow) (id : ℕ)
    (viaRelay : Bool) :
    (window.spend id viaRelay).activeClient = some id := by
  cases viaRelay <;> rfl

/-- It counts for the path that client came by. -/
@[simp] theorem PairingWindow.spend_activeClientViaRelay (window : PairingWindow) (id : ℕ)
    (viaRelay : Bool) : (window.spend id viaRelay).activeClientViaRelay = viaRelay := by
  cases viaRelay <;> rfl

/-- Every confirmation is counted in its window. -/
structure Counted (s : RemoteService P) : Prop where
  past : ∀ c ∈ s.confirmations, c.window ≤ s.windows
  limit : ∀ window viaRelay, s.tally window viaRelay ≤ pairingAttemptLimit
  sound : ∀ window, s.pairing = some window → window.Sound (s.tally s.windows)

/-- The active client is one that is pairing, with an exchange begun in this window. -/
def ActivePairs (s : RemoteService P) : Prop :=
  ∀ window id, s.pairing = some window → window.activeClient = some id →
    ∃ client deviceID deviceName exchange, s.clients.get? id = some client ∧
      client.mode = .pairing deviceID deviceName exchange ∧
      client.viaRelay = window.activeClientViaRelay ∧
      ⟨s.windows, id, client.viaRelay, exchange⟩ ∈ s.confirmations

structure Kept (s : RemoteService P) : Prop extends Accounted s, Counted s where
  active : ActivePairs s

/-- The count goes by the window, the windows so far and what was confirmed. -/
theorem Counted.of_same (h : Counted s) (hpairing : s'.pairing = s.pairing)
    (hwindows : s'.windows = s.windows) (hconfirmations : s'.confirmations = s.confirmations) :
    Counted s' where
  past := by rw [hconfirmations, hwindows]; exact h.past
  limit := by simp only [tally, hconfirmations]; exact h.limit
  sound := by
    have htally : s'.tally s'.windows = s.tally s.windows := by
      rw [hwindows]
      funext path
      rw [tally, tally, hconfirmations]
    rw [hpairing, htally]
    exact h.sound

/-- A service without a window counts nothing. -/
theorem Counted.without (h : Counted s) : Counted { s with pairing := none } where
  past := h.past
  limit := h.limit
  sound _ hnone := nomatch hnone

/-- A window that is sound is counted. -/
theorem Counted.with (h : Counted s) {window : PairingWindow}
    (hwindow : window.Sound (s.tally s.windows)) : Counted { s with pairing := some window } where
  past := h.past
  limit := h.limit
  sound _ hsome := by cases hsome; exact hwindow

/-! ## What a client's event may do

`Moves` keeps the books for all that a client's event does, and `Outcome` is what it may do to the
window besides. -/

/-- The window, if it has not expired, is open still, with as many local attempts used. -/
def Held (s s' : RemoteService P) : Prop :=
  ∀ window, s.pairing = some window → s.now < window.expiresAt →
    ∃ window', s'.pairing = some window' ∧ window'.code = window.code ∧
      window'.expiresAt = window.expiresAt ∧ window'.attemptsUsed = window.attemptsUsed

/-- What two steps held, both held. -/
theorem Held.trans {s'' : RemoteService P} (h : Held s s') (hnow : s'.now = s.now)
    (h' : Held s' s'') :
    Held s s'' := by
  intro window hwindow hopen
  obtain ⟨window', hwindow', hcode, hexpires, hused⟩ := h window hwindow hopen
  have hopen' : s'.now < window'.expiresAt := by rw [hnow, hexpires]; exact hopen
  obtain ⟨window'', hwindow'', hcode', hexpires', hused'⟩ := h' window' hwindow' hopen'
  exact ⟨window'', hwindow'', hcode'.trans hcode, hexpires'.trans hexpires, hused'.trans hused⟩

/-- What an event of a client on a path comes to that stores no device. -/
structure Outcome (viaRelay : Bool) (s s' : RemoteService P) : Prop where
  kept : Kept s'
  now : s'.now = s.now
  devices : s'.devices = s.devices
  held : viaRelay = true → Held s s'

/-- A part of such an event, that makes no client another. -/
structure Moves (viaRelay : Bool) (s s' : RemoteService P) :
    Prop extends Outcome viaRelay s s' where
  started : s.started ⊆ s'.started
  same : ∀ id ∈ s.started, ∀ client', s'.clients.get? id = some client' →
    ∃ client, s.clients.get? id = some client ∧ client'.viaRelay = client.viaRelay ∧
      client'.hasDaemon = client.hasDaemon

/-- What two steps did for one path, both did. -/
theorem Outcome.trans {viaRelay : Bool} {s'' : RemoteService P} (h : Outcome viaRelay s s')
    (h' : Outcome viaRelay s' s'') : Outcome viaRelay s s'' where
  kept := h'.kept
  now := h'.now.trans h.now
  devices := h'.devices.trans h.devices
  held hrelay := (h.held hrelay).trans h.now (h'.held hrelay)

/-- Doing nothing keeps all. -/
theorem Moves.refl {viaRelay : Bool} (h : Kept s) : Moves viaRelay s s where
  kept := h
  now := rfl
  devices := rfl
  started := List.Subset.refl _
  same _ _ client' hget := ⟨client', hget, rfl, rfl⟩
  held _ window hwindow _ := ⟨window, hwindow, rfl, rfl, rfl⟩

/-- Keeping all twice keeps all. -/
theorem Moves.trans {viaRelay : Bool} {s'' : RemoteService P} (h : Moves viaRelay s s')
    (h' : Moves viaRelay s' s'') : Moves viaRelay s s'' where
  toOutcome := h.toOutcome.trans h'.toOutcome
  started := List.Subset.trans h.started h'.started
  same id hid client'' hget'' := by
    obtain ⟨client', hget', hpath', hdaemon'⟩ := h'.same id (h.started hid) client'' hget''
    obtain ⟨client, hget, hpath, hdaemon⟩ := h.same id hid client' hget'
    exact ⟨client, hget, hpath'.trans hpath, hdaemon'.trans hdaemon⟩

/-- What of the service is no client's. -/
structure SameBooks (s s' : RemoteService P) : Prop where
  now : s'.now = s.now
  devices : s'.devices = s.devices
  pairing : s'.pairing = s.pairing
  windows : s'.windows = s.windows
  confirmations : s'.confirmations = s.confirmations

/-- The window is left alone, and its active client as it was. -/
theorem Kept.outcome (h : Kept s) (haccounted : Accounted s') (hbooks : SameBooks s s')
    (hactive : ∀ id client, s.pairing.bind PairingWindow.activeClient = some id →
      s.clients.get? id = some client → ∃ client', s'.clients.get? id = some client' ∧
        client'.mode = client.mode ∧ client'.viaRelay = client.viaRelay) (viaRelay : Bool) :
    Outcome viaRelay s s' where
  now := hbooks.now
  devices := hbooks.devices
  held _ window hwindow _ := ⟨window, hbooks.pairing.trans hwindow, rfl, rfl, rfl⟩
  kept :=
    { toAccounted := haccounted
      toCounted := h.toCounted.of_same hbooks.pairing hbooks.windows hbooks.confirmations
      active := by
        intro window id hwindow hid
        rw [hbooks.pairing] at hwindow
        obtain ⟨client, deviceID, deviceName, exchange, hget, hmode, hpath, hmem⟩ :=
          h.active window id hwindow hid
        have hbind : s.pairing.bind PairingWindow.activeClient = some id := by
          rw [hwindow]; exact hid
        obtain ⟨client', hget', hmode', hpath'⟩ := hactive id client hbind hget
        refine ⟨client', deviceID, deviceName, exchange, hget', hmode'.trans hmode,
          hpath'.trans hpath, ?_⟩
        rw [hbooks.windows, hbooks.confirmations, hpath']
        exact hmem }

/-- One client changes, on its path: not in its mode, if it is the active one. -/
theorem Kept.insert (h : Kept s) {client : Client P} (hget : s.clients.get? id = some client)
    (client' : Client P) (hpath : client'.viaRelay = client.viaRelay)
    (hdaemon : client'.hasDaemon → client'.mode.deviceID.isSome)
    (hmode : s.pairing.bind PairingWindow.activeClient = some id → client'.mode = client.mode)
    (viaRelay : Bool) : Outcome viaRelay s { s with clients := s.clients.insert id client' } := by
  have hbooks : SameBooks s { s with clients := s.clients.insert id client' } :=
    ⟨rfl, rfl, rfl, rfl, rfl⟩
  refine h.outcome (h.toAccounted.insert hget hdaemon) hbooks (fun id' c hactive hc => ?_) viaRelay
  rw [Dict.get?_insert]
  split_ifs with hid
  · subst hid
    rw [hget] at hc
    cases hc
    exact ⟨client', rfl, hmode hactive, hpath⟩
  · exact ⟨c, hc, rfl, rfl⟩

/-- A client that changes its mode while it begins to pair keeps the rest. -/
theorem Outcome.moves_insert {viaRelay : Bool} {client client' : Client P}
    (h : Outcome viaRelay s { s with clients := s.clients.insert id client' })
    (hget : s.clients.get? id = some client) (hpath : client'.viaRelay = client.viaRelay)
    (hdaemon : client'.hasDaemon = client.hasDaemon) :
    Moves viaRelay s { s with clients := s.clients.insert id client' } where
  toOutcome := h
  started := List.Subset.refl _
  same id' _ c hc := by
    rw [Dict.get?_insert] at hc
    split_ifs at hc with hid
    · cases hc
      exact ⟨client, hid ▸ hget, hpath, hdaemon⟩
    · exact ⟨c, hc, rfl, rfl⟩

/-- A client may change what is neither mode, path nor daemon. -/
theorem Kept.flags (h : Kept s) {client : Client P} (hget : s.clients.get? id = some client)
    (client' : Client P) (hmode : client'.mode = client.mode)
    (hpath : client'.viaRelay = client.viaRelay) (hdaemon : client'.hasDaemon = client.hasDaemon)
    (viaRelay : Bool) :
    Moves viaRelay s { s with clients := s.clients.insert id client' } := by
  refine (h.insert hget client' hpath ?_ (fun _ => hmode) viaRelay).moves_insert hget hpath hdaemon
  rw [hdaemon, hmode]
  exact h.daemons id client hget

/-! ## Starting those that wait

A handshake that ends frees its slot, and the queue is looked at again. -/

/-- Starting connections that waited changes clients, the queue and who was started. -/
theorem startWaiting_eq : ∀ (rest passed : List Waiting) (s : RemoteService P),
    ∃ clients waiting started, s.startWaiting passed rest = { s with clients, waiting, started } ∧
      s.started ⊆ started
  | [], passed, s => ⟨s.clients, passed, s.started, rfl, List.Subset.refl _⟩
  | next :: rest, passed, s => by
      rw [RemoteService.startWaiting]
      split_ifs
      · obtain ⟨clients, waiting, started, heq, hsub⟩ := startWaiting_eq rest passed (s.start next)
        exact ⟨clients, waiting, started, heq,
          List.Subset.trans (List.subset_append_left _ _) hsub⟩
      · exact startWaiting_eq rest (passed ++ [next]) s

/-- Each is started once, and no longer waits. -/
theorem Accounted.startWaiting : ∀ (rest passed : List Waiting) {s : RemoteService P},
    Accounted { s with waiting := passed ++ rest } → Accounted (s.startWaiting passed rest)
  | [], passed, s, h => by rwa [List.append_nil] at h
  | next :: rest, passed, s, h => by
      rw [RemoteService.startWaiting]
      split_ifs
      · exact Accounted.startWaiting rest passed h.start
      · refine Accounted.startWaiting rest (passed ++ [next]) ?_
        rwa [List.append_assoc, List.singleton_append]

/-- A slot that is free goes to one that waits. -/
theorem Accounted.handshakeEnded (h : Accounted s) : Accounted s.handshakeEnded :=
  Accounted.startWaiting s.waiting [] h

/-- Which changes neither the window nor the devices. -/
theorem sameBooks_handshakeEnded (s : RemoteService P) : SameBooks s s.handshakeEnded := by
  obtain ⟨clients, waiting, started, heq, -⟩ := startWaiting_eq s.waiting [] s
  rw [RemoteService.handshakeEnded, heq]
  exact ⟨rfl, rfl, rfl, rfl, rfl⟩

/-- And no one that was started is forgotten. -/
theorem started_handshakeEnded (s : RemoteService P) : s.started ⊆ s.handshakeEnded.started := by
  obtain ⟨clients, waiting, started, heq, hsub⟩ := startWaiting_eq s.waiting [] s
  rw [RemoteService.handshakeEnded, heq]
  exact hsub

/-- So the end of a handshake keeps all. -/
theorem Kept.handshakeEnded (h : Kept s) (viaRelay : Bool) : Moves viaRelay s s.handshakeEnded where
  toOutcome := by
    refine h.outcome h.toAccounted.handshakeEnded (sameBooks_handshakeEnded s)
      (fun id client _ hget => ?_) viaRelay
    rw [h.get?_handshakeEnded (h.clients id client hget)]
    exact ⟨client, hget, rfl, rfl⟩
  started := started_handshakeEnded s
  same id hid client' hget' := by
    rw [h.get?_handshakeEnded hid] at hget'
    exact ⟨client', hget', rfl, rfl⟩

/-! ## The end of a link

However a client ends, its attempt fails once, and what it held stays for its device. -/

/-- A client that is gone, and those that were started in its place. -/
theorem Accounted.left (h : Accounted s) (id : ℕ) :
    let gone := { s with clients := s.clients.erase id }.handshakeEnded
    Accounted gone ∧ SameBooks s gone ∧ s.started ⊆ gone.started ∧
      ∀ id' ∈ s.started, gone.clients.get? id' = if id = id' then none else s.clients.get? id' := by
  have herase := h.erase id
  have hbooks := sameBooks_handshakeEnded { s with clients := s.clients.erase id }
  have hstarted := started_handshakeEnded { s with clients := s.clients.erase id }
  refine ⟨herase.handshakeEnded, ?_, hstarted, fun id' hid' => ?_⟩
  · exact ⟨hbooks.now, hbooks.devices, hbooks.pairing, hbooks.windows, hbooks.confirmations⟩
  · rw [herase.get?_handshakeEnded hid']
    exact Dict.get?_erase _ _ _

/-- A client that is not the active one leaves, lingering or not. -/
theorem Kept.leaves (h : Kept s) (hid : s.pairing.bind PairingWindow.activeClient ≠ some id)
    (hbooks : SameBooks s s') (haccounted : Accounted s') (hstarted : s.started ⊆ s'.started)
    (hget : ∀ id' ∈ s.started,
      s'.clients.get? id' = if id = id' then none else s.clients.get? id') (viaRelay : Bool) :
    Moves viaRelay s s' where
  toOutcome := by
    refine h.outcome haccounted hbooks (fun id' client hactive hclient => ?_) viaRelay
    have hne : id ≠ id' := fun heq => hid (heq ▸ hactive)
    rw [hget id' (h.clients id' client hclient), if_neg hne]
    exact ⟨client, hclient, rfl, rfl⟩
  started := hstarted
  same id' hid' client' hclient' := by
    rw [hget id' hid'] at hclient'
    split_ifs at hclient'
    exact ⟨client', hclient', rfl, rfl⟩

/-- A client in the middle of a pairing holds no sessions. -/
theorem Kept.not_lingering (h : Kept s) {client : Client P} (hget : s.clients.get? id = some client)
    (hid : s.pairing.bind PairingWindow.activeClient = some id) :
    ¬ (client.hasDaemon = true ∧ client.heldSessions ≠ []) := by
  obtain ⟨window, hwindow, hactive⟩ := Option.bind_eq_some_iff.mp hid
  obtain ⟨client', _, _, _, hget', hmode, -, -⟩ := h.active window id hwindow hactive
  rw [hget] at hget'
  cases hget'
  exact fun hlinger => h.not_hasDaemon hget (by rw [hmode]; rfl) hlinger.1

/-- With no active client to lose, a close is a move, whatever `failed` is. -/
theorem Kept.closedWith (h : Kept s) (hid : s.pairing.bind PairingWindow.activeClient ≠ some id)
    (failed : RemoteService P → List UInt8 → RemoteService P) (viaRelay : Bool) :
    Moves viaRelay s (s.closedWith failed id) ∧ (s.closedWith failed id).pairing = s.pairing := by
  rw [RemoteService.closedWith]
  cases hget : s.clients.get? id with
  | none => exact ⟨.refl h, rfl⟩
  | some client =>
    obtain ⟨haccounted, hbooks, hstarted, hclients⟩ := h.toAccounted.left id
    simp only
    split_ifs with hlinger hactive
    · have herase := h.toAccounted.erase id
      have hlingers : Accounted
          { s with clients := s.clients.erase id, lingering := s.lingering.insert id client } :=
        ⟨herase.once, herase.clients, herase.daemons⟩
      have hbooks : SameBooks s
          { s with clients := s.clients.erase id, lingering := s.lingering.insert id client } :=
        ⟨rfl, rfl, rfl, rfl, rfl⟩
      refine ⟨h.leaves hid hbooks hlingers (List.Subset.refl _) ?_ viaRelay, rfl⟩
      exact fun id' _ => Dict.get?_erase _ _ _
    · rw [hbooks.pairing] at hactive
      exact absurd hactive hid
    · exact ⟨h.leaves hid hbooks haccounted hstarted hclients viaRelay, hbooks.pairing⟩

/-- Closing a client that does not pair leaves the window as it is. -/
theorem Kept.closeWith (h : Kept s) (hid : s.pairing.bind PairingWindow.activeClient ≠ some id)
    (failed : RemoteService P → List UInt8 → RemoteService P) (viaRelay : Bool) :
    Moves viaRelay s (s.closeWith failed id) ∧ (s.closeWith failed id).pairing = s.pairing := by
  rw [RemoteService.closeWith]
  cases hget : s.clients.get? id with
  | none => exact ⟨.refl h, rfl⟩
  | some client =>
    simp only
    split_ifs
    · exact ⟨.refl h, rfl⟩
    · exact ⟨h.flags hget { client with isDraining := true } rfl rfl rfl viaRelay, rfl⟩
    · exact h.closedWith hid failed viaRelay

/-- Closing those that meet `p`, none of which is the active client. -/
theorem Kept.foldl_closeIfWith {p : Mode P → Bool} {pairing : Option PairingWindow}
    (hp : ∀ {s : RemoteService P}, Kept s → s.pairing = pairing → ∀ id client,
      s.clients.get? id = some client → p client.mode = true →
        s.pairing.bind PairingWindow.activeClient ≠ some id)
    (failed : RemoteService P → List UInt8 → RemoteService P) (viaRelay : Bool) :
    ∀ (ids : List ℕ) {s : RemoteService P}, Kept s → s.pairing = pairing →
      Moves viaRelay s (ids.foldl (RemoteService.closeIfWith failed p) s) ∧
        (ids.foldl (RemoteService.closeIfWith failed p) s).pairing = pairing
  | [], _, h, hpairing => ⟨.refl h, hpairing⟩
  | id :: ids, s, h, hpairing => by
      have hone : Moves viaRelay s (s.closeIfWith failed p id) ∧
          (s.closeIfWith failed p id).pairing = s.pairing := by
        rw [RemoteService.closeIfWith]
        split_ifs with hany
        · obtain ⟨client, hget, hmeets⟩ := (Option.any_eq_true _ _).mp hany
          exact h.closeWith (hp h hpairing id client hget hmeets) failed viaRelay
        · exact ⟨.refl h, rfl⟩
      obtain ⟨hmoves, hrest⟩ :=
        Kept.foldl_closeIfWith hp failed viaRelay ids hone.1.kept (hone.2.trans hpairing)
      exact ⟨hone.1.trans hmoves, hrest⟩

/-- So does closing several when no one pairs. -/
theorem Kept.closeEach_inactive (h : Kept s)
    (hnone : s.pairing.bind PairingWindow.activeClient = none)
    (failed : RemoteService P → List UInt8 → RemoteService P) (p : Mode P → Bool)
    (viaRelay : Bool) :
    Moves viaRelay s (s.closeEach failed p) ∧ (s.closeEach failed p).pairing = s.pairing :=
  Kept.foldl_closeIfWith (fun _ hpairing _ _ _ _ h => by rw [hpairing, hnone] at h; cases h) failed
    viaRelay
    s.clients.keys h rfl

/-! ## A failed attempt -/

/-- The active client's attempt failed; it may be gone by now.  A relayed one leaves the window open
to the local network. -/
theorem recordPairingFailure_moves (haccounted : Accounted s) (hcounted : Counted s)
    {window : PairingWindow} (hwindow : s.pairing = some window) (address : List UInt8) :
    Moves window.activeClientViaRelay s (s.recordPairingFailure address) ∧
      (s.recordPairingFailure address).pairing.bind PairingWindow.activeClient = none := by
  have hsound := hcounted.sound window hwindow
  -- a window that goes on, with nobody active
  have hopen : ∀ window' : PairingWindow, window'.activeClient = none →
      window'.Sound (s.tally s.windows) → window'.code = window.code →
      window'.expiresAt = window.expiresAt → window'.attemptsUsed = window.attemptsUsed →
      Moves window.activeClientViaRelay s { s with pairing := some window' } := by
    intro window' hnone hsound' hcode hexpires hused
    exact
      { kept :=
          { toAccounted := ⟨haccounted.once, haccounted.clients, haccounted.daemons⟩
            toCounted := hcounted.with hsound'
            active := by
              intro w id hw hid
              cases hw
              rw [hnone] at hid
              cases hid }
        now := rfl
        devices := rfl
        started := List.Subset.refl _
        same := fun _ _ client hget => ⟨client, hget, rfl, rfl⟩
        held := by
          intro _ w hw _
          rw [hwindow] at hw
          cases hw
          exact ⟨window', rfl, hcode, hexpires, hused⟩ }
  rw [RemoteService.recordPairingFailure, hwindow]
  simp only
  by_cases hrelayed : window.activeClientViaRelay = true
  · have hlocal : window.attemptsUsed < pairingAttemptLimit :=
      hsound.localRoom.resolve_right fun hspent => by rw [hrelayed] at hspent; cases hspent.2.2
    rw [if_pos hrelayed]
    split_ifs with hspent
    · refine ⟨hopen _ rfl ?_ rfl rfl rfl, rfl⟩
      exact ⟨hsound.localCount, hsound.relayCount, .inl hlocal, Bool.false_ne_true.elim,
        hsound.relayLimit⟩
    · refine ⟨hopen _ rfl ?_ rfl rfl rfl, rfl⟩
      refine ⟨hsound.localCount, hsound.relayCount, .inl hlocal, fun hallows => .inl ?_,
        hsound.relayLimit⟩
      exact Nat.lt_of_not_le fun hle => hspent ⟨hle, hallows⟩
  · rw [if_neg hrelayed]
    split_ifs with hspent
    · have hnone : Kept { s with pairing := none } :=
        { toAccounted := ⟨haccounted.once, haccounted.clients, haccounted.daemons⟩
          toCounted := hcounted.without
          active := fun _ _ hw => (Option.some_ne_none _ hw.symm).elim }
      obtain ⟨hmoves, hpairing⟩ := hnone.closeEach_inactive rfl (fun s _ => s) Mode.isPairing false
      refine ⟨?_, by rw [hpairing]; rfl⟩
      exact
        { kept := hmoves.kept
          now := hmoves.now
          devices := hmoves.devices
          started := hmoves.started
          same := hmoves.same
          held := fun h => absurd h hrelayed }
    · refine ⟨hopen _ rfl ?_ rfl rfl rfl, rfl⟩
      refine ⟨hsound.localCount, hsound.relayCount, .inl (Nat.lt_of_not_le hspent),
        fun hallows => ?_, hsound.relayLimit⟩
      exact .inl ((hsound.relayRoom hallows).resolve_right fun hspent => hrelayed hspent.2.2)

/-- Whoever goes by this number is on this path. -/
def OnPath (s : RemoteService P) (id : ℕ) (viaRelay : Bool) : Prop :=
  ∀ client, s.clients.get? id = some client → client.viaRelay = viaRelay

/-- A client's end fails its own attempt and no other. -/
theorem Kept.closed (h : Kept s) {viaRelay : Bool} (hpath : OnPath s id viaRelay) :
    Moves viaRelay s (s.closed id) := by
  by_cases hid : s.pairing.bind PairingWindow.activeClient = some id
  · obtain ⟨window, hwindow, hactive⟩ := Option.bind_eq_some_iff.mp hid
    obtain ⟨client, _, _, _, hget, -, hrelayed, -⟩ := h.active window id hwindow hactive
    obtain ⟨haccounted, hbooks, hstarted, hclients⟩ := h.toAccounted.left id
    have hcounted := h.toCounted.of_same hbooks.pairing hbooks.windows hbooks.confirmations
    obtain ⟨hfails, -⟩ := recordPairingFailure_moves haccounted hcounted
      (hbooks.pairing.trans hwindow) client.address
    have hclosed : s.closed id =
        { s with clients := s.clients.erase id }.handshakeEnded.recordPairingFailure
          client.address := by
      rw [RemoteService.closed, RemoteService.closedWith, hget]
      simp only [if_neg (h.not_lingering hget hid), hbooks.pairing, if_pos hid]
    rw [hclosed]
    exact
      { kept := hfails.kept
        now := hfails.now.trans hbooks.now
        devices := hfails.devices.trans hbooks.devices
        started := List.Subset.trans hstarted hfails.started
        same := by
          intro id' hid' client'' hget''
          obtain ⟨client', hget', hsame'⟩ := hfails.same id' (hstarted hid') client'' hget''
          rw [hclients id' hid'] at hget'
          split_ifs at hget'
          exact ⟨client', hget', hsame'⟩
        held := by
          intro hrelay w hw hnow
          rw [← hpath client hget, hrelayed] at hrelay
          refine hfails.held hrelay w (hbooks.pairing.trans hw) ?_
          rw [hbooks.now]
          exact hnow }
  · exact (h.closedWith hid recordPairingFailure viaRelay).1

/-- So does closing it. -/
theorem Kept.close (h : Kept s) {viaRelay : Bool} (hpath : OnPath s id viaRelay) :
    Moves viaRelay s (s.close id) := by
  rw [RemoteService.close, RemoteService.closeWith]
  cases hget : s.clients.get? id with
  | none => exact .refl h
  | some client =>
    simp only
    split_ifs
    · exact .refl h
    · exact h.flags hget { client with isDraining := true } rfl rfl rfl viaRelay
    · exact h.closed hpath

/-! ## Frames -/

/-- A client does not change its path. -/
theorem Moves.onPath {viaRelay path : Bool} (h : Moves viaRelay s s') (hid : id ∈ s.started)
    (hpath : OnPath s id path) : OnPath s' id path := by
  intro client' hget'
  obtain ⟨client, hget, hsame, -⟩ := h.same id hid client' hget'
  exact hsame.trans (hpath client hget)

/-- A client may change all but mode, path and daemon. -/
theorem Kept.withClient (h : Kept s) (id : ℕ) (f : Client P → Client P)
    (hf : ∀ client, (f client).mode = client.mode ∧ (f client).viaRelay = client.viaRelay ∧
      (f client).hasDaemon = client.hasDaemon) (viaRelay : Bool) :
    Moves viaRelay s (s.withClient id f) := by
  rw [RemoteService.withClient]
  cases hget : s.clients.get? id with
  | none => exact .refl h
  | some client =>
    obtain ⟨hmode, hpath, hdaemon⟩ := hf client
    exact h.flags hget (f client) hmode hpath hdaemon viaRelay

/-- Sending keeps all. -/
theorem Kept.send (h : Kept s) (id : ℕ) (viaRelay : Bool) : Moves viaRelay s (s.send id) := by
  refine h.withClient id _ (fun client => ?_) viaRelay
  split_ifs <;> exact ⟨rfl, rfl, rfl⟩

/-- So does a reply. -/
theorem Kept.reply (h : Kept s) (id tag : ℕ) (viaRelay : Bool) :
    Moves viaRelay s (s.reply id tag) := by
  rw [RemoteService.reply]
  split_ifs
  · exact h.send id viaRelay
  · exact .refl h

/-- A refusal ends the client. -/
theorem Kept.refuse (h : Kept s) {viaRelay : Bool} (hid : id ∈ s.started)
    (hpath : OnPath s id viaRelay) (tag : ℕ) : Moves viaRelay s ((s.reply id tag).close id) := by
  have hreply := h.reply id tag viaRelay
  exact hreply.trans (hreply.kept.close (hreply.onPath hid hpath))

/-- The active client is not one that handshakes. -/
theorem Kept.not_active (h : Kept s) {client : Client P} (hget : s.clients.get? id = some client)
    (hmode : client.mode.isPairing = false) :
    s.pairing.bind PairingWindow.activeClient ≠ some id := by
  intro hid
  obtain ⟨window, hwindow, hactive⟩ := Option.bind_eq_some_iff.mp hid
  obtain ⟨client', _, _, _, hget', hmode', -, -⟩ := h.active window id hwindow hactive
  rw [hget] at hget'
  cases hget'
  rw [hmode'] at hmode
  cases hmode

/-- Authenticating spends no attempt. -/
theorem Kept.authenticate (h : Kept s) {client : Client P} (hget : s.clients.get? id = some client)
    (hfirst : client.mode = .handshaking) (tag : ℕ) (deviceID : Option (List UInt8))
    (isProven isDaemonRunning : Bool) :
    Outcome client.viaRelay s (s.authenticate id tag deviceID isProven isDaemonRunning) := by
  have hid : id ∈ s.started := h.clients id client hget
  have hpath : OnPath s id client.viaRelay := fun c hc => by rw [hget] at hc; cases hc; rfl
  have hnot := h.not_active hget (by rw [hfirst]; rfl)
  unfold RemoteService.authenticate
  cases deviceID with
  | none => exact (h.refuse hid hpath tag).toOutcome
  | some deviceID =>
    simp only
    split_ifs
    · exact (h.refuse hid hpath tag).toOutcome
    · let device : Client P := { client with mode := .session deviceID }
      have hmode : Outcome client.viaRelay s { s with clients := s.clients.insert id device } :=
        h.insert hget device rfl (fun _ => rfl) (fun hactive => absurd hactive hnot) _
      have hended := hmode.kept.handshakeEnded client.viaRelay
      have hget' : { s with clients := s.clients.insert id device }.handshakeEnded.clients.get? id =
          some device := (hmode.kept.get?_handshakeEnded hid).trans (Dict.get?_insert_self _ _ _)
      have hnot' := hended.kept.not_active hget' rfl
      rw [setMode_first_eq hget hfirst rfl, RemoteService.withClient, hget']
      refine (hmode.trans hended.toOutcome).trans ?_
      exact hended.kept.insert hget' { device with hasDaemon := true } rfl (fun _ => rfl)
        (fun hactive => absurd hactive hnot') _

/-- A window that ran out is gone. -/
theorem Kept.expirePairingIfNeeded (h : Kept s) (viaRelay : Bool) :
    Moves viaRelay s s.expirePairingIfNeeded := by
  rw [RemoteService.expirePairingIfNeeded]
  cases hpairing : s.pairing with
  | none => exact .refl h
  | some window =>
    simp only
    split_ifs with hexpired
    · exact
        { kept :=
            { toAccounted := ⟨h.once, h.clients, h.daemons⟩
              toCounted := h.toCounted.without
              active := fun _ _ hw => (Option.some_ne_none _ hw.symm).elim }
          now := rfl
          devices := rfl
          started := List.Subset.refl _
          same := fun _ _ client hget => ⟨client, hget, rfl, rfl⟩
          held := by
            intro _ w hw hnow
            rw [hpairing] at hw
            cases hw
            omega }
    · exact .refl h

/-! ## Attempts

One attempt is spent when a pairing begins, and a wrong code closes nothing else. -/

/-- A confirmation that goes out is one more on its path. -/
theorem tally_append (s : RemoteService P) (c : Confirmation P) (window : ℕ) (path : Bool) :
    { s with confirmations := s.confirmations ++ [c] }.tally window path =
      s.tally window path + if c.window = window ∧ c.viaRelay = path then 1 else 0 := by
  simp [tally, List.countP_append, List.countP_singleton]

/-- A relayed attempt spends no local one. -/
theorem spend_held {viaRelay : Bool} {window : PairingWindow} (hwindow : s.pairing = some window)
    (hpairing : s'.pairing = some (window.spend id viaRelay)) (hrelay : viaRelay = true) :
    Held s s' := by
  intro w hw _
  rw [hwindow] at hw
  cases hw
  refine ⟨_, hpairing, ?_⟩
  rw [hrelay]
  exact ⟨rfl, rfl, rfl⟩

/-- An attempt spent on what is no share. -/
theorem Kept.badShare (h : Kept s) {client : Client P} {window : PairingWindow}
    (hwindow : s.pairing = some window) (hactive : window.activeClient = none)
    (hallows : client.viaRelay = true → window.allowsRelay = true) (id : ℕ) :
    Moves client.viaRelay s
      ({ s with pairing := some (window.spend id client.viaRelay) }.recordPairingFailure
        client.address) := by
  have hsound : (window.spend id client.viaRelay).Sound (s.tally s.windows) :=
    (h.sound window hwindow).spend hactive hallows id fun _ => Nat.le_add_right _ _
  have haccounted : Accounted { s with pairing := some (window.spend id client.viaRelay) } :=
    ⟨h.once, h.clients, h.daemons⟩
  obtain ⟨hfails, -⟩ := recordPairingFailure_moves haccounted (h.toCounted.with hsound) rfl
    client.address
  rw [PairingWindow.spend_activeClientViaRelay] at hfails
  have hspent : client.viaRelay = true →
      Held s { s with pairing := some (window.spend id client.viaRelay) } :=
    fun hrelay => spend_held hwindow rfl hrelay
  exact
    { kept := hfails.kept
      now := hfails.now
      devices := hfails.devices
      started := hfails.started
      same := hfails.same
      held := fun hrelay => (hspent hrelay).trans rfl (hfails.held hrelay) }

/-- The service once a client has begun an attempt. -/
def begun (s : RemoteService P) (id : ℕ) (client : Client P) (window : PairingWindow)
    (exchange : P.Exchange) : RemoteService P :=
  { s with
    pairing := some (window.spend id client.viaRelay)
    confirmations := s.confirmations ++ [⟨s.windows, id, client.viaRelay, exchange⟩] }

/-- An attempt that begins. -/
theorem Kept.begins (h : Kept s) {client : Client P} (hget : s.clients.get? id = some client)
    (hfirst : client.mode = .handshaking) {window : PairingWindow}
    (hwindow : s.pairing = some window) (hactive : window.activeClient = none)
    (hallows : client.viaRelay = true → window.allowsRelay = true)
    (deviceID deviceName : List UInt8) (exchange : P.Exchange) :
    let pairs : Client P := { client with mode := .pairing deviceID deviceName exchange }
    Outcome client.viaRelay s
      { s.begun id client window exchange with clients := s.clients.insert id pairs } := by
  intro pairs
  have htally : ∀ number path, (s.begun id client window exchange).tally number path =
      s.tally number path + if s.windows = number ∧ client.viaRelay = path then 1 else 0 :=
    tally_append s _
  have hsound : (window.spend id client.viaRelay).Sound
      ((s.begun id client window exchange).tally s.windows) := by
    refine (h.sound window hwindow).spend hactive hallows id fun path => ?_
    rw [htally]
    simp
  have hdaemon : client.hasDaemon ≠ true := Bool.eq_false_iff.mp (h.first hget hfirst)
  have hinsert : Accounted { s with clients := s.clients.insert id pairs } :=
    h.toAccounted.insert hget fun hdaemon' => absurd hdaemon' hdaemon
  exact
    { now := rfl
      devices := rfl
      held := fun hrelay => spend_held hwindow rfl hrelay
      kept :=
        { once := hinsert.once
          clients := hinsert.clients
          daemons := hinsert.daemons
          past := by
            intro c hc
            rcases List.mem_append.mp hc with hc | hc
            · exact h.past c hc
            · rw [List.mem_singleton.mp hc]
              exact Nat.le_refl s.windows
          limit := by
            intro number path
            by_cases hnumber : s.windows = number
            · exact hnumber ▸ hsound.limit path
            · refine le_trans (le_of_eq (htally number path)) ?_
              rw [if_neg fun hboth => hnumber hboth.1]
              exact h.limit number path
          sound := by
            intro w hw
            cases hw
            exact hsound
          active := by
            intro w id' hw hid'
            cases hw
            rw [PairingWindow.spend_activeClient] at hid'
            cases hid'
            refine ⟨_, deviceID, deviceName, exchange, Dict.get?_insert_self _ _ _, rfl, ?_, ?_⟩
            · exact (PairingWindow.spend_activeClientViaRelay _ _ _).symm
            · exact List.mem_append_right _ (List.mem_singleton.mpr rfl) } }

/-- **Beginning to pair spends an attempt of its own path.** -/
theorem Kept.startPairing (h : Kept s) {client : Client P} (hget : s.clients.get? id = some client)
    (hfirst : client.mode = .handshaking) (tag : ℕ)
    (message : Option (List UInt8 × List UInt8 × List UInt8)) (random : ℕ) :
    Outcome client.viaRelay s (s.startPairing id tag client message random) := by
  have hid : id ∈ s.started := h.clients id client hget
  have hpath : OnPath s id client.viaRelay := fun c hc => by rw [hget] at hc; cases hc; rfl
  unfold RemoteService.startPairing
  match message with
  | none => exact (h.refuse hid hpath tag).toOutcome
  | some (deviceID, deviceName, share) =>
    have hexpired := h.expirePairingIfNeeded client.viaRelay
    have hclients := expirePairingIfNeeded_clients s
    simp only
    rcases s.beginPairing_cases id client deviceID share random with
      ⟨refusal, heq⟩ | ⟨window, hwindow, hallows, hactive, heq | ⟨exchange, -, heq⟩⟩
    · rw [heq]
      exact (hexpired.trans (hexpired.kept.refuse (hexpired.started hid)
        (hexpired.onPath hid hpath) tag)).toOutcome
    · have hbad := hexpired.trans (hexpired.kept.badShare hwindow hactive hallows id)
      rw [heq]
      exact (hbad.trans (hbad.kept.refuse (hbad.started hid) (hbad.onPath hid hpath) tag)).toOutcome
    · have hget' : s.expirePairingIfNeeded.clients.get? id = some client := by rw [hclients, hget]
      have hbegun := hexpired.kept.begins hget' hfirst hwindow hactive hallows deviceID deviceName
        exchange
      have hended := hbegun.kept.handshakeEnded client.viaRelay
      have hmode : (s.expirePairingIfNeeded.begun id client window exchange).setMode id
          (.pairing deviceID deviceName exchange) = _ := setMode_first_eq hget' hfirst rfl
      rw [heq]
      change Outcome client.viaRelay s
        (((s.expirePairingIfNeeded.begun id client window exchange).setMode id
          (.pairing deviceID deviceName exchange)).send id)
      rw [hmode]
      refine (hexpired.toOutcome.trans hbegun).trans ?_
      exact (hended.trans (hended.kept.send id client.viaRelay)).toOutcome

/-- The first frame authenticates or begins to pair. -/
theorem Kept.handleFirst (h : Kept s) {client : Client P} (hget : s.clients.get? id = some client)
    (hfirst : client.mode = .handshaking) (tag : ℕ) (frame : Frame) (random : ℕ) :
    Outcome client.viaRelay s (s.handleFirst id tag client frame random) := by
  have hid : id ∈ s.started := h.clients id client hget
  have hpath : OnPath s id client.viaRelay := fun c hc => by rw [hget] at hc; cases hc; rfl
  unfold RemoteService.handleFirst
  split
  · split_ifs
    · exact h.authenticate hget hfirst tag _ _ _
    · exact (h.refuse hid hpath tag).toOutcome
  · split_ifs
    · exact h.startPairing hget hfirst tag _ random
    · exact (h.refuse hid hpath tag).toOutcome
  · exact (h.close hpath).toOutcome

/-! ## The end of a pairing

A device is stored here and nowhere else. -/

/-- A client that is no longer active comes back from pairing, and is closed. -/
theorem Kept.comesBack (h : Kept s) (hid : id ∈ s.started)
    (hinactive : s.pairing.bind PairingWindow.activeClient ≠ some id) {viaRelay : Bool}
    (hpath : OnPath s id viaRelay)
    (hdaemon : ∀ client, s.clients.get? id = some client → client.hasDaemon = false) (tag : ℕ) :
    Moves viaRelay s (((s.setMode id .handshaking).reply id tag).close id) := by
  have hback : Moves viaRelay s (s.setMode id .handshaking) := by
    cases hget : s.clients.get? id with
    | none =>
      rw [setMode_of_none hget]
      exact .refl h
    | some client =>
      have hnone : client.hasDaemon ≠ true := Bool.eq_false_iff.mp (hdaemon client hget)
      rw [setMode_back hget]
      exact (h.insert hget client.back rfl (fun hdaemon' => absurd hdaemon' hnone)
        (fun hactive => absurd hactive hinactive) viaRelay).moves_insert hget rfl rfl
  exact hback.trans (hback.kept.refuse (hback.started hid) (hback.onPath hid hpath) tag)

/-- The event by which the active client of the window pairs a device: its confirmation verifies, in
the exchange it was given the host's confirmation for in this very window. -/
def Pairs (s : RemoteService P) (e : Event) (device : Device) : Prop :=
  ∃ id tag confirmation random client deviceID deviceName exchange window sessionKey,
    e = .frame id tag (.pairFinish (some confirmation)) random ∧
    s.clients.get? id = some client ∧ client.mode = .pairing deviceID deviceName exchange ∧
    s.pairing = some window ∧ window.activeClient = some id ∧
    ⟨s.windows, id, client.viaRelay, exchange⟩ ∈ s.confirmations ∧
    P.verifyConfirmation exchange confirmation = some sessionKey ∧
    device = ⟨deviceID, deviceName, P.deviceKey sessionKey s.hostID deviceID, s.now⟩

/-- What an event comes to that pairs a device. -/
def Paired (s : RemoteService P) (e : Event) (s' : RemoteService P) : Prop :=
  Kept s' ∧ ∃ device, s.Pairs e device ∧
    s'.devices = (s.devices.filter fun d => d.id ≠ device.id) ++ [device]

/-- A confirmation that fails costs no more than its attempt. -/
theorem Kept.handlePairing (h : Kept s) {client : Client P} {deviceID deviceName : List UInt8}
    {exchange : P.Exchange} (hget : s.clients.get? id = some client)
    (hmode : client.mode = .pairing deviceID deviceName exchange) (tag : ℕ) (frame : Frame)
    (random : ℕ) :
    Outcome client.viaRelay s (s.handlePairing id tag client deviceID deviceName exchange frame) ∨
      Paired s (.frame id tag frame random)
        (s.handlePairing id tag client deviceID deviceName exchange frame) := by
  have hid : id ∈ s.started := h.clients id client hget
  have hpath : OnPath s id client.viaRelay := fun c hc => by rw [hget] at hc; cases hc; rfl
  have hdaemon : client.hasDaemon = false :=
    Bool.eq_false_iff.mpr (h.not_hasDaemon hget (by rw [hmode]; rfl))
  have hdaemons : ∀ c, s.clients.get? id = some c → c.hasDaemon = false := fun c hc => by
    rw [hget] at hc
    cases hc
    exact hdaemon
  unfold RemoteService.handlePairing
  split
  case h_2 => exact .inl (h.close hpath).toOutcome
  case h_1 confirmation =>
  rw [RemoteService.finishPairing]
  by_cases hactive : s.pairing.bind PairingWindow.activeClient = some id
  · obtain ⟨window, hwindow, hactive'⟩ := Option.bind_eq_some_iff.mp hactive
    obtain ⟨client', d, n, x, hget', hmode', hrelayed, hmem⟩ := h.active window id hwindow hactive'
    rw [hget] at hget'
    cases hget'
    rw [hmode] at hmode'
    cases hmode'
    rw [if_pos hactive]
    cases hverify : P.verifyConfirmation exchange confirmation with
    | none =>
      obtain ⟨hfails, hnone⟩ := recordPairingFailure_moves h.toAccounted h.toCounted hwindow
        client.address
      rw [← hrelayed] at hfails
      refine .inl (hfails.trans ?_).toOutcome
      refine hfails.kept.comesBack (hfails.started hid) (hnone ▸ (Option.some_ne_none _).symm)
        (hfails.onPath hid hpath) (fun c hc => ?_) tag
      obtain ⟨c', hc', -, hsame⟩ := hfails.same id hid c hc
      exact hsame.trans (hdaemons c' hc')
    | some sessionKey =>
      right
      let device : Device :=
        ⟨deviceID, deviceName, P.deviceKey sessionKey s.hostID deviceID, s.now⟩
      have hdone : Kept
          { s with
            devices := (s.devices.filter fun d => d.id ≠ deviceID) ++ [device]
            pairing := none } :=
        { once := h.once
          clients := h.clients
          daemons := h.daemons
          past := h.past
          limit := h.limit
          sound := fun _ hw => (Option.some_ne_none _ hw.symm).elim
          active := fun _ _ hw => (Option.some_ne_none _ hw.symm).elim }
      have hback := hdone.comesBack hid (Option.some_ne_none id).symm hpath hdaemons tag
      refine ⟨hback.kept, device, ?_, hback.devices⟩
      exact ⟨id, tag, confirmation, random, client, deviceID, deviceName, exchange, window,
        sessionKey, rfl, hget, hmode, hwindow, hactive', hmem, hverify, rfl⟩
  · rw [if_neg hactive]
    exact .inl (h.comesBack hid hactive hpath hdaemons tag).toOutcome

/-! ## Events -/

/-- The client whose event it is. -/
def Event.client : Event → Option ℕ
  | .ready id => some id
  | .frame id _ _ _ => some id
  | .processed id _ => some id
  | .flushTimeout id => some id
  | .closed id => some id
  | .handshakeTimeout id => some id
  | .pairingTimeout id => some id
  | .silence id => some id
  | .daemonSends id _ => some id
  | _ => none

/-- Frames of a session leave pairing alone. -/
theorem Kept.handleSession (h : Kept s) {client : Client P} (hget : s.clients.get? id = some client)
    (tag : ℕ) (frame : Frame) : Outcome client.viaRelay s (s.handleSession id tag frame) := by
  have hpath : OnPath s id client.viaRelay := fun c hc => by rw [hget] at hc; cases hc; rfl
  rw [RemoteService.handleSession.eq_def]
  split
  · exact (h.close hpath).toOutcome
  · exact (Moves.refl h).toOutcome
  · exact (Moves.refl h).toOutcome
  · exact (h.reply id tag client.viaRelay).toOutcome

/-- A frame keeps all, or is the confirmation that pairs. -/
theorem Kept.handle (h : Kept s) {viaRelay : Bool} (hpath : OnPath s id viaRelay) (tag : ℕ)
    (frame : Frame) (random : ℕ) :
    Outcome viaRelay s (s.handle id tag frame random) ∨
      Paired s (.frame id tag frame random) (s.handle id tag frame random) := by
  rw [RemoteService.handle]
  cases hget : s.clients.get? id with
  | none => exact .inl (Moves.refl h).toOutcome
  | some client =>
    rw [← hpath client hget]
    simp only
    split_ifs
    · exact .inl (Moves.refl h).toOutcome
    · cases hmode : client.mode with
      | handshaking => exact .inl (h.handleFirst hget hmode tag frame random)
      | session deviceID => exact .inl (h.handleSession hget tag frame)
      | pairing deviceID deviceName exchange => exact h.handlePairing hget hmode tag frame random

/-- A client that is closed for its mode ends like any other. -/
theorem Kept.closeIf (h : Kept s) {viaRelay : Bool} (hpath : OnPath s id viaRelay)
    (p : Mode P → Bool) :
    Outcome viaRelay s (s.closeIf id p) := by
  rw [RemoteService.closeIf, RemoteService.closeIfWith]
  split_ifs
  · exact (h.close hpath).toOutcome
  · exact (Moves.refl h).toOutcome

/-- The answer to a request may end its client. -/
theorem Kept.processed (h : Kept s) {viaRelay : Bool} (hpath : OnPath s id viaRelay)
    (isError : Bool) : Outcome viaRelay s (s.processed id isError) := by
  rw [RemoteService.processed]
  cases hget : s.clients.get? id with
  | none => exact (Moves.refl h).toOutcome
  | some client =>
    have hflags := h.flags hget { client with pending := client.pending - 1 } rfl rfl rfl viaRelay
    simp only
    split_ifs
    · exact (Moves.refl h).toOutcome
    · have hpath' := hflags.onPath (h.clients id client hget) hpath
      exact (hflags.trans (hflags.kept.closed hpath')).toOutcome
    · exact hflags.toOutcome

/-- What a client's event comes to. -/
theorem Kept.step_client (h : Kept s) {e : Event} (hclient : e.client = some id) {viaRelay : Bool}
    (hpath : OnPath s id viaRelay) : Outcome viaRelay s (s.step e) ∨ Paired s e (s.step e) := by
  cases e with
  | clock now => cases hclient
  | accept viaRelay isLocal address => cases hclient
  | waitTimeout connection => cases hclient
  | lingerEnds id => cases hclient
  | management operation tag => cases hclient
  | ready id' =>
    have hready := h.withClient id' (fun client => { client with isReady := true })
      (fun _ => ⟨rfl, rfl, rfl⟩) viaRelay
    exact .inl hready.toOutcome
  | daemonSends id' heldSessions =>
    refine .inl (h.withClient id' _ (fun client => ?_) viaRelay).toOutcome
    split_ifs <;> exact ⟨rfl, rfl, rfl⟩
  | frame id' tag frame random =>
    cases hclient
    exact h.handle hpath tag frame random
  | processed id' isError =>
    cases hclient
    exact .inl (h.processed hpath isError)
  | flushTimeout id' =>
    cases hclient
    left
    rw [RemoteService.step]
    split_ifs
    · exact (h.closed hpath).toOutcome
    · exact (Moves.refl h).toOutcome
  | closed id' =>
    cases hclient
    exact .inl (h.closed hpath).toOutcome
  | handshakeTimeout id' =>
    cases hclient
    exact .inl (h.closeIf hpath _)
  | pairingTimeout id' =>
    cases hclient
    exact .inl (h.closeIf hpath _)
  | silence id' =>
    cases hclient
    exact .inl (h.closeIf hpath _)

/-- A new connection begins with nothing. -/
theorem Kept.accept (h : Kept s) (viaRelay isLocal : Bool) (address : List UInt8) :
    Outcome true s (s.accept viaRelay isLocal address) := by
  have hnone : s.clients.get? (s.arrivals + 1) = none := h.of_none (Nat.lt_succ_self _)
  rw [RemoteService.accept]
  split_ifs
  · exact h.outcome h.toAccounted.cancels ⟨rfl, rfl, rfl, rfl, rfl⟩
      (fun _ client _ hget => ⟨client, hget, rfl, rfl⟩) true
  · refine h.outcome (h.toAccounted.starts address viaRelay) ⟨rfl, rfl, rfl, rfl, rfl⟩
      (fun id client _ hget => ⟨client, ?_, rfl, rfl⟩) true
    have hne : s.arrivals + 1 ≠ id := fun heq => by
      rw [heq, hget] at hnone
      cases hnone
    exact (Dict.get?_insert_of_ne _ hne _).trans hget
  · exact h.outcome (h.toAccounted.waits address viaRelay) ⟨rfl, rfl, rfl, rfl, rfl⟩
      (fun _ client _ hget => ⟨client, hget, rfl, rfl⟩) true
  · exact h.outcome h.toAccounted.cancels ⟨rfl, rfl, rfl, rfl, rfl⟩
      (fun _ client _ hget => ⟨client, hget, rfl, rfl⟩) true

/-- One that waited too long is dropped. -/
theorem Kept.waitTimeout (h : Kept s) (connection : ℕ) :
    Outcome true s (s.waitTimeout connection) := by
  rw [RemoteService.waitTimeout]
  split_ifs with hmem
  · exact h.outcome (h.toAccounted.waitTimeout hmem) ⟨rfl, rfl, rfl, rfl, rfl⟩
      (fun _ client _ hget => ⟨client, hget, rfl, rfl⟩) true
  · exact (Moves.refl h).toOutcome

/-- A new window, whose code nobody was given a confirmation for. -/
theorem Kept.opens (h : Kept s) (code : List UInt8) (expiresAt : ℕ) (allowsRelay : Bool) :
    Kept { s with windows := s.windows + 1, pairing := some { code, expiresAt, allowsRelay } } := by
  have hnone : ∀ path, s.tally (s.windows + 1) path = 0 := by
    intro path
    refine List.countP_eq_zero.mpr fun c hc hboth => ?_
    have hpast := h.past c hc
    simp only [Bool.and_eq_true, beq_iff_eq] at hboth
    omega
  exact
    { once := h.once
      clients := h.clients
      daemons := h.daemons
      past := fun c hc => Nat.le_succ_of_le (h.past c hc)
      limit := h.limit
      sound := by
        intro window hwindow
        cases hwindow
        have hroom : 0 < pairingAttemptLimit := by decide
        exact ⟨(hnone false).le, (hnone true).le, .inl hroom, fun _ => .inl hroom, Nat.zero_le _⟩
      active := by
        intro window id hwindow hid
        cases hwindow
        cases hid }

/-- A window that is closed counts nothing further. -/
theorem Kept.ends (h : Kept s) : Kept { s with pairing := none } where
  once := h.once
  clients := h.clients
  daemons := h.daemons
  past := h.past
  limit := h.limit
  sound _ hw := nomatch hw
  active _ _ hw := nomatch hw

/-- The devices are as they were, or one is revoked, or one is stored that may be. -/
def Stores (s : RemoteService P) (e : Event) (may : Device → Prop) : Prop :=
  (s.step e).devices = s.devices ∨
  (∃ deviceID tag, e = .management (.revokeRemoteDevice deviceID) tag ∧
    (s.step e).devices = s.devices.filter fun d => d.id ≠ deviceID) ∨
  ∃ device, may device ∧
    (s.step e).devices = (s.devices.filter fun d => d.id ≠ device.id) ++ [device]

/-- What may be stored may also be stored under a weaker condition. -/
theorem Stores.mono {e : Event} {may may' : Device → Prop} (h : s.Stores e may)
    (hmay : ∀ device, may device → may' device) : s.Stores e may' :=
  Or.imp_right
    (Or.imp_right (Exists.imp fun device hdevice => ⟨hmay device hdevice.1, hdevice.2⟩)) h

/-- Managing removes the device it names, if it removes any. -/
theorem Kept.perform (h : Kept s) (operation : Operation) :
    Kept (s.perform operation) ∧
      ((s.perform operation).devices = s.devices ∨
        ∃ deviceID, operation = .revokeRemoteDevice deviceID ∧
          (s.perform operation).devices = s.devices.filter fun d => d.id ≠ deviceID) := by
  cases operation with
  | remoteStatus => exact ⟨h, .inl rfl⟩
  | beginPairing code relayPairing =>
    obtain ⟨hmoves, -⟩ := (h.opens code (s.now + pairingWindowSeconds)
      (s.hasRelay && relayPairing)).closeEach_inactive rfl recordPairingFailure Mode.isPairing false
    exact ⟨hmoves.kept, .inl hmoves.devices⟩
  | endPairing =>
    obtain ⟨hmoves, -⟩ := h.ends.closeEach_inactive rfl recordPairingFailure Mode.isPairing false
    exact ⟨hmoves.kept, .inl hmoves.devices⟩
  | setRelayConfiguration isUsable =>
    refine ⟨?_, .inl rfl⟩
    exact ⟨⟨h.once, h.clients, h.daemons⟩, ⟨h.past, h.limit, h.sound⟩, h.active⟩
  | revokeRemoteDevice deviceID =>
    rw [RemoteService.perform]
    split_ifs
    · have hforgets : Kept { s with devices := s.devices.filter fun d => d.id ≠ deviceID } :=
        ⟨⟨h.once, h.clients, h.daemons⟩, ⟨h.past, h.limit, h.sound⟩, h.active⟩
      have hinactive : ∀ {s' : RemoteService P}, Kept s' → s'.pairing = s.pairing → ∀ id client,
          s'.clients.get? id = some client → (client.mode.deviceID == some deviceID) = true →
            s'.pairing.bind PairingWindow.activeClient ≠ some id := by
        intro s' h' _ id client hget hdevice
        refine h'.not_active hget ?_
        cases hmode : client.mode with
        | handshaking => rfl
        | session _ => rfl
        | pairing _ _ _ => rw [hmode] at hdevice; cases hdevice
      obtain ⟨hmoves, -⟩ := Kept.foldl_closeIfWith
        (p := fun mode => mode.deviceID == some deviceID) hinactive recordPairingFailure false
        s.clients.keys hforgets rfl
      have hkept := hmoves.kept
      refine ⟨?_, .inr ⟨deviceID, rfl, hmoves.devices⟩⟩
      exact ⟨⟨hkept.once, hkept.clients, hkept.daemons⟩, ⟨hkept.past, hkept.limit, hkept.sound⟩,
        hkept.active⟩
    · exact ⟨h, .inl rfl⟩

/-- Its answer changes nothing further. -/
theorem Kept.handleManagement (h : Kept s) (operation : Operation) (tag : ℕ) :
    Kept (s.handleManagement operation tag) ∧
      (s.handleManagement operation tag).devices = (s.perform operation).devices := by
  have hperform := (h.perform operation).1
  have hexpires := hperform.expirePairingIfNeeded false
  rw [RemoteService.handleManagement]
  split_ifs
  · exact ⟨hexpires.kept, hexpires.devices⟩
  · exact ⟨hperform, rfl⟩

/-- **Every event keeps all, and stores a device only when a pairing ends.** -/
theorem Kept.step_spec (h : Kept s) (e : Event) : Kept (s.step e) ∧ s.Stores e (s.Pairs e) := by
  cases hclient : e.client with
  | some id =>
    obtain ⟨viaRelay, hpath⟩ : ∃ viaRelay, OnPath s id viaRelay := by
      cases hget : s.clients.get? id with
      | none => exact ⟨false, fun client hc => by rw [hget] at hc; cases hc⟩
      | some client => exact ⟨client.viaRelay, fun c hc => by rw [hget] at hc; cases hc; rfl⟩
    rcases h.step_client hclient hpath with houtcome | ⟨hkept, hstored⟩
    · exact ⟨houtcome.kept, .inl houtcome.devices⟩
    · exact ⟨hkept, .inr (.inr hstored)⟩
  | none =>
    cases e with
    | clock now =>
      refine ⟨?_, .inl rfl⟩
      exact ⟨⟨h.once, h.clients, h.daemons⟩, ⟨h.past, h.limit, h.sound⟩, h.active⟩
    | lingerEnds id =>
      refine ⟨?_, .inl rfl⟩
      exact ⟨⟨h.once, h.clients, h.daemons⟩, ⟨h.past, h.limit, h.sound⟩, h.active⟩
    | accept viaRelay isLocal address =>
      have haccept := h.accept viaRelay isLocal address
      exact ⟨haccept.kept, .inl haccept.devices⟩
    | waitTimeout connection =>
      have htimeout := h.waitTimeout connection
      exact ⟨htimeout.kept, .inl htimeout.devices⟩
    | management operation tag =>
      obtain ⟨hkept, hdevices⟩ := h.handleManagement operation tag
      refine ⟨hkept, ?_⟩
      rcases (h.perform operation).2 with hsame | ⟨deviceID, rfl, hfilter⟩
      · exact .inl (hdevices.trans hsame)
      · exact .inr (.inl ⟨deviceID, tag, rfl, hdevices.trans hfilter⟩)
    | ready id => cases hclient
    | frame id tag frame random => cases hclient
    | processed id isError => cases hclient
    | flushTimeout id => cases hclient
    | closed id => cases hclient
    | handshakeTimeout id => cases hclient
    | pairingTimeout id => cases hclient
    | silence id => cases hclient
    | daemonSends id heldSessions => cases hclient

/-- A service that starts has spent nothing. -/
theorem kept_launched (now : ℕ) (hostID : List UInt8) (devices : List Device) (hasRelay : Bool) :
    Kept (P := P) (launched now hostID devices hasRelay) where
  toAccounted := (seated_launched now hostID devices hasRelay).toAccounted
  past _ hc := nomatch hc
  limit _ _ := Nat.zero_le _
  sound _ hw := nomatch hw
  active _ _ hw := nomatch hw

/-! ## Runs -/

/-- The window is one a pairing may begin in. -/
def HasOpenWindow (s : RemoteService P) : Prop :=
  ∃ window, s.pairing = some window ∧ s.now < window.expiresAt

/-- What a relayed client does leaves an open window open to the local network, with as many local
attempts used. -/
def RelaySpares (s : RemoteService P) (e : Event) : Prop :=
  ∀ id client, e.client = some id → s.clients.get? id = some client → client.viaRelay = true →
    Held s (s.step e)

/-- A confirmation that verifies, from the client that is active in the window. -/
def Verifies (s : RemoteService P) (e : Event) (window : PairingWindow) : Prop :=
  ∃ id tag confirmation random client deviceID deviceName exchange,
    e = .frame id tag (.pairFinish (some confirmation)) random ∧
    s.clients.get? id = some client ∧ client.mode = .pairing deviceID deviceName exchange ∧
    s.pairing = some window ∧ window.activeClient = some id ∧
    (P.verifyConfirmation exchange confirmation).isSome

/-- No such confirmation comes once the window's time is up, or through the relay. -/
def InTime (s : RemoteService P) (e : Event) : Prop :=
  ∀ window, s.Verifies e window → s.now < window.expiresAt ∧ window.activeClientViaRelay = false

/-- A device that is paired was verified in a window. -/
theorem Pairs.verifies {e : Event} {device : Device} (h : s.Pairs e device) :
    ∃ window, s.Verifies e window := by
  obtain ⟨id, tag, confirmation, random, client, deviceID, deviceName, exchange, window, sessionKey,
    he, hget, hmode, hwindow, hactive, -, hverify, -⟩ := h
  refine ⟨window, id, tag, confirmation, random, client, deviceID, deviceName, exchange, he,
    hget, hmode, hwindow, hactive, ?_⟩
  rw [hverify]
  rfl

/-- In time, a device is paired in an open window. -/
theorem InTime.hasOpenWindow {e : Event} (h : s.InTime e) {device : Device}
    (hpairs : s.Pairs e device) :
    s.HasOpenWindow := by
  obtain ⟨window, hverifies⟩ := hpairs.verifies
  obtain ⟨-, -, -, -, -, -, -, -, -, -, -, hwindow, -⟩ := id hverifies
  exact ⟨window, hwindow, (h window hverifies).1⟩

/-- In time, no relayed client pairs a device. -/
theorem InTime.not_viaRelay {e : Event} (h : s.InTime e) (hkept : Kept s) {device : Device}
    (hpairs : s.Pairs e device) {id : ℕ} {client : Client P} (hclient : e.client = some id)
    (hget : s.clients.get? id = some client) : client.viaRelay = false := by
  obtain ⟨window, hverifies⟩ := hpairs.verifies
  have hrelay := (h window hverifies).2
  obtain ⟨id', tag, confirmation, random, client', deviceID, deviceName, exchange, rfl, hget', -,
    hwindow, hactive, -⟩ := hverifies
  cases hclient
  rw [hget] at hget'
  cases hget'
  obtain ⟨c, -, -, -, hc, -, hpath, -⟩ := hkept.active window id hwindow hactive
  rw [hget] at hc
  cases hc
  exact hpath.trans hrelay

/-- Within the lifetime of a window the relay's attempts spare those of the local network. -/
theorem Kept.relaySpares (h : Kept s) {e : Event} (hintime : s.InTime e) : s.RelaySpares e := by
  intro id client hclient hget hrelay
  have hpath : OnPath s id true := fun c hc => by
    rw [hget] at hc
    cases hc
    exact hrelay
  rcases h.step_client hclient hpath with houtcome | ⟨-, device, hpairs, -⟩
  · exact houtcome.held rfl
  · exact absurd (hintime.not_viaRelay h hpairs hclient hget) (hrelay ▸ Bool.true_eq_false.mp)

/-- **A pairing code is good for so many attempts on each path, the relay's are its own, and a
device is stored only by the active client of the open window its exchange was begun in**, unless a
confirmation verifies that came too late or through the relay. -/
theorem run_attempts (now : ℕ) (hostID : List UInt8) (devices : List Device) (hasRelay : Bool)
    (es : List Event) :
    let s := Run.after (step (P := P)) (launched now hostID devices hasRelay) es
    (∀ window viaRelay, s.tally window viaRelay ≤ pairingAttemptLimit) ∧
      ∀ e, s.InTime e → s.RelaySpares e ∧ s.Stores e fun device => s.Pairs e device ∧
        s.HasOpenWindow := by
  have hkept : Kept (Run.after (step (P := P)) (launched now hostID devices hasRelay) es) :=
    Run.invariant (fun _ e h => (h.step_spec e).1) es (kept_launched now hostID devices hasRelay)
  refine ⟨hkept.limit, fun e hintime => ⟨hkept.relaySpares hintime, ?_⟩⟩
  exact (hkept.step_spec e).2.mono fun device hpairs => ⟨hpairs, hintime.hasOpenWindow hpairs⟩

/-! ## Late -/

/-- An exchange that takes any share and any confirmation. -/
def laxExchange : PairingExchange where
  Exchange := Unit
  receiveShare _ _ _ := some ()
  verifyConfirmation _ _ := some []
  deviceKey _ _ _ := []

/-- A client of the local network begins a pairing at `start`, and the time comes to be `finish`. -/
def localRun (start finish : ℕ) : List Event :=
  [.management (.beginPairing [] false) 1, .accept false true [], .ready 1, .clock start,
    .frame 1 1 (.pairStart true (some ([], [], []))) 0, .clock finish]

/-- Begun and finished in the window's time: the device is stored. -/
theorem run_attempts_inTime :
    let s := Run.after (step (P := laxExchange)) (launched 0 [] [] false) (localRun 90 119)
    (s.step (.frame 1 2 (.pairFinish (some [])) 0)).devices = [⟨[], [], [], 119⟩] ∧
      s.Stores (.frame 1 2 (.pairFinish (some [])) 0)
        fun device => s.Pairs (.frame 1 2 (.pairFinish (some [])) 0) device ∧ s.HasOpenWindow := by
  refine ⟨rfl, ((run_attempts 0 [] [] false (localRun 90 119)).2 _ fun window hverifies => ?_).2⟩
  obtain ⟨-, -, -, -, -, -, -, -, -, -, -, hwindow, -⟩ := hverifies
  cases hwindow
  exact ⟨by decide, rfl⟩

/-- **A pairing that begins in the window's last second is stored 29 seconds later**, when no window
is open. -/
theorem run_stores_late :
    let s := Run.after (step (P := laxExchange)) (launched 0 [] [] false) (localRun 119 148)
    (s.step (.frame 1 2 (.pairFinish (some [])) 0)).devices = [⟨[], [], [], 148⟩] ∧
      ¬ s.Stores (.frame 1 2 (.pairFinish (some [])) 0)
        fun device => s.Pairs (.frame 1 2 (.pairFinish (some [])) 0) device ∧ s.HasOpenWindow := by
  refine ⟨rfl, ?_⟩
  rintro (hsame | ⟨_, _, he, _⟩ | ⟨device, ⟨-, window, hwindow, hopen⟩, -⟩)
  · cases hsame
  · cases he
  · cases hwindow
    exact absurd hopen (by decide)

end RemoteService
