import IGhostVT.Lib.Run
import IGhostVT.Remote.RemoteService

/-!
# Remote/HandshakeSlots — how many strangers handshake, and who waits

A client takes a slot when it is started and gives it back when its first frame is good or its link
is over; the next in line is started there and then (`Seated`).  A client that comes back from
pairing takes a slot again, free or not, and keeps it while its last reply drains: that is the one
step that passes the limit (`Crowds`).
-/

open RemoteAccess

namespace RemoteService

variable {P : PairingExchange} {s : RemoteService P} {id : ℕ}

/-! ## Counting clients

A client takes a slot of its path while its mode is that of a handshake. -/

/-- The slots a client takes on a path. -/
def Client.slots (client : Client P) (viaRelay : Bool) : ℕ :=
  if !client.mode.isAuthenticated && client.viaRelay == viaRelay then 1 else 0

/-- A client that is added counts by its mode. -/
theorem handshaking_insert_none (h : s.clients.get? id = none) (client : Client P) (path : Bool) :
    { s with clients := s.clients.insert id client }.handshaking path =
      s.handshaking path + client.slots path := by
  have hcount := s.clients.countP_insert id client
    fun e => !e.2.mode.isAuthenticated && e.2.viaRelay == path
  rw [Dict.erase_of_none h] at hcount
  exact hcount

/-- One that is removed is counted no longer. -/
theorem handshaking_erase {client : Client P} (h : s.clients.get? id = some client) (path : Bool) :
    s.handshaking path =
      { s with clients := s.clients.erase id }.handshaking path + client.slots path :=
  Dict.countP_entries h _

/-- One that changes counts by its new mode. -/
theorem handshaking_insert {client : Client P} (h : s.clients.get? id = some client)
    (client' : Client P) (path : Bool) :
    { s with clients := s.clients.insert id client' }.handshaking path + client.slots path =
      s.handshaking path + client'.slots path := by
  have hcount := s.clients.countP_insert id client'
    fun e => !e.2.mode.isAuthenticated && e.2.viaRelay == path
  have herase := handshaking_erase h path
  simp only [handshaking, Client.slots] at hcount herase ⊢
  omega

/-- A slot is free when fewer than all are taken. -/
theorem hasHandshakeSlot_iff {path : Bool} :
    s.hasHandshakeSlot path = true ↔ s.handshaking path < maximumUnauthenticatedConnections :=
  decide_eq_true_iff

/-! ## Connections -/

/-- Every accepted connection is exactly one of waiting, started once and cancelled once. -/
structure Accounted (s : RemoteService P) : Prop where
  once : ∀ c, s.started.count c + s.cancelled.count c + (s.waiting.map Waiting.connection).count c =
    if 0 < c ∧ c ≤ s.arrivals then 1 else 0
  clients : ∀ id client, s.clients.get? id = some client → id ∈ s.started
  /-- Only a device has a daemon. -/
  daemons : ∀ id client, s.clients.get? id = some client → client.hasDaemon →
    client.mode.deviceID.isSome

/-- `Accounted`, and within the limits. -/
structure Standing (s : RemoteService P) : Prop extends Accounted s where
  slots : ∀ path, s.handshaking path ≤ maximumUnauthenticatedConnections
  waits : ∀ path, s.waitingOn path ≤ maximumWaitingConnections

/-- No connection waits for a path that has a free slot. -/
def Full (s : RemoteService P) : Prop :=
  ∀ next ∈ s.waiting, s.hasHandshakeSlot next.viaRelay = false

/-- `Standing`, with nobody kept waiting. -/
structure Seated (s : RemoteService P) : Prop extends Standing s where
  full : Full s

/-- A connection that waits was not started. -/
theorem Accounted.notMem_started (h : Accounted s) {next : Waiting} (hnext : next ∈ s.waiting) :
    next.connection ∉ s.started := by
  intro hmem
  have hstarted := List.count_pos_iff.mpr hmem
  have hwaits := List.count_pos_iff.mpr (List.mem_map_of_mem (f := Waiting.connection) hnext)
  have honce := h.once next.connection
  split_ifs at honce <;> omega

/-- And so is no client. -/
theorem Accounted.get?_eq_none (h : Accounted s) {next : Waiting} (hnext : next ∈ s.waiting) :
    s.clients.get? next.connection = none := by
  rw [Option.eq_none_iff_forall_ne_some]
  exact fun client hclient => h.notMem_started hnext (h.clients _ _ hclient)

/-- Nor does a connection have a client that has not arrived. -/
theorem Accounted.of_none (h : Accounted s) {c : ℕ} (hc : s.arrivals < c) :
    s.clients.get? c = none := by
  rw [Option.eq_none_iff_forall_ne_some]
  intro client hclient
  have hstarted := List.count_pos_iff.mpr (h.clients _ _ hclient)
  have honce := h.once c
  rw [if_neg (by omega)] at honce
  omega

/-- Starting a connection takes it out of the queue. -/
theorem Accounted.start {passed rest : List Waiting} {next : Waiting}
    (h : Accounted { s with waiting := passed ++ next :: rest }) :
    Accounted { s.start next with waiting := passed ++ rest } where
  once c := by
    refine Eq.trans ?_ (h.once c)
    simp only [RemoteService.start, List.map_append, List.map_cons, List.count_append,
      List.count_cons, List.count_nil, beq_iff_eq]
    omega
  clients id client hclient := by
    rw [RemoteService.start, Dict.get?_insert] at hclient
    split_ifs at hclient with hid
    · exact List.mem_append_right _ (List.mem_singleton.mpr hid.symm)
    · exact List.mem_append_left _ (h.clients id client hclient)
  daemons id client hclient hdaemon := by
    rw [RemoteService.start, Dict.get?_insert] at hclient
    split_ifs at hclient with hid
    · cases hclient
      cases hdaemon
    · exact h.daemons id client hclient hdaemon

/-- A client that changes is the same connection. -/
theorem Accounted.insert (h : Accounted s) {client client' : Client P}
    (hget : s.clients.get? id = some client)
    (hdaemon : client'.hasDaemon → client'.mode.deviceID.isSome) :
    Accounted { s with clients := s.clients.insert id client' } where
  once := h.once
  clients id' c hc := by
    rw [Dict.get?_insert] at hc
    split_ifs at hc with hid
    · exact hid ▸ h.clients id client hget
    · exact h.clients id' c hc
  daemons id' c hc := by
    rw [Dict.get?_insert] at hc
    split_ifs at hc with hid
    · cases hc
      exact hdaemon
    · exact h.daemons id' c hc

/-- A client that ends was started all the same. -/
theorem Accounted.erase (h : Accounted s) (id : ℕ) :
    Accounted { s with clients := s.clients.erase id } where
  once := h.once
  clients id' client hclient := by
    rw [Dict.get?_erase] at hclient
    split_ifs at hclient
    exact h.clients id' client hclient
  daemons id' client hclient := by
    rw [Dict.get?_erase] at hclient
    split_ifs at hclient
    exact h.daemons id' client hclient

/-! ## Starting connections

A connection starts where its path has a free slot, in the order of the queue. -/

/-- A connection that starts takes a slot of its path. -/
theorem handshaking_start {next : Waiting} (h : s.clients.get? next.connection = none)
    (path : Bool) :
    (s.start next).handshaking path =
      s.handshaking path + if next.viaRelay = path then 1 else 0 := by
  rw [RemoteService.start]
  refine (handshaking_insert_none h _ path).trans ?_
  simp [Client.slots, Mode.isAuthenticated]

/-- Which is one that was free. -/
theorem slots_start {next : Waiting} (hnone : s.clients.get? next.connection = none)
    (hlimit : ∀ path, s.handshaking path ≤ maximumUnauthenticatedConnections)
    (hslot : s.hasHandshakeSlot next.viaRelay = true) (path : Bool) :
    (s.start next).handshaking path ≤ maximumUnauthenticatedConnections := by
  rw [handshaking_start hnone]
  split_ifs with hpath
  · rw [hasHandshakeSlot_iff, hpath] at hslot
    exact hslot
  · exact hlimit path

/-- A path that had no slot has none after more handshakes. -/
theorem no_slot_of_le {s' : RemoteService P} {path : Bool}
    (h : s.hasHandshakeSlot path = false) (hle : s.handshaking path ≤ s'.handshaking path) :
    s'.hasHandshakeSlot path = false := by
  rw [Bool.eq_false_iff, Ne, hasHandshakeSlot_iff] at h ⊢
  omega

/-- A path without a free slot has none after that either. -/
theorem no_slot_start {next : Waiting} (hnone : s.clients.get? next.connection = none) {path : Bool}
    (h : s.hasHandshakeSlot path = false) : (s.start next).hasHandshakeSlot path = false := by
  refine no_slot_of_le h ?_
  rw [handshaking_start hnone]
  omega

/-- A start keeps the limit. -/
theorem Standing.start {passed rest : List Waiting} {next : Waiting}
    (h : Standing { s with waiting := passed ++ next :: rest })
    (hslot : s.hasHandshakeSlot next.viaRelay = true) :
    Standing { s.start next with waiting := passed ++ rest } where
  toAccounted := h.toAccounted.start
  slots :=
    slots_start (h.get?_eq_none (List.mem_append_right _ List.mem_cons_self)) h.slots hslot
  waits path := by
    refine le_trans ?_ (h.waits path)
    exact List.Sublist.countP_le ((List.sublist_cons_self next rest).append_left passed)

/-- Walking the list leaves nobody waiting for a free slot: a slot that `passed` connections did not
find is not freed by starting others. -/
theorem Standing.startWaiting : ∀ (rest passed : List Waiting) {s : RemoteService P},
    Standing { s with waiting := passed ++ rest } →
      (∀ next ∈ passed, s.hasHandshakeSlot next.viaRelay = false) →
        Seated (s.startWaiting passed rest)
  | [], passed, s, h, hfull => by
      rw [List.append_nil] at h
      exact { toStanding := h, full := hfull }
  | next :: rest, passed, s, h, hfull => by
      rw [RemoteService.startWaiting]
      split_ifs with hslot
      · refine Standing.startWaiting rest passed (h.start hslot) fun w hw => ?_
        have hnone : s.clients.get? next.connection = none :=
          h.get?_eq_none (List.mem_append_right _ List.mem_cons_self)
        exact no_slot_start hnone (hfull w hw)
      · refine Standing.startWaiting rest (passed ++ [next]) ?_ fun w hw => ?_
        · rwa [List.append_assoc, List.singleton_append]
        · rcases List.mem_append.mp hw with hw | hw
          · exact hfull w hw
          · rw [List.mem_singleton.mp hw]
            exact eq_false_of_ne_true hslot

/-- When a handshake ends, all that can start do. -/
theorem Standing.handshakeEnded (h : Standing s) : Seated s.handshakeEnded :=
  Standing.startWaiting s.waiting [] h fun _ hw => absurd hw List.not_mem_nil

/-- Where no slot is free for any that waits, none starts. -/
theorem startWaiting_of_full : ∀ (rest passed : List Waiting),
    (∀ next ∈ rest, s.hasHandshakeSlot next.viaRelay = false) →
      s.startWaiting passed rest = { s with waiting := passed ++ rest }
  | [], passed, _ => by rw [List.append_nil]; rfl
  | next :: rest, passed, h => by
      rw [RemoteService.startWaiting, h next List.mem_cons_self, if_neg Bool.false_ne_true,
        startWaiting_of_full rest _ fun w hw => h w (List.mem_cons_of_mem _ hw), List.append_assoc,
        List.singleton_append]

/-- So looking at the queue again changes nothing. -/
theorem Full.handshakeEnded (h : Full s) : s.handshakeEnded = s :=
  startWaiting_of_full s.waiting [] h

/-- The seats go by the clients, the queue and who arrived. -/
theorem Seated.of_same {s' : RemoteService P} (h : Seated s) (hclients : s'.clients = s.clients)
    (hwaiting : s'.waiting = s.waiting) (harrivals : s'.arrivals = s.arrivals)
    (hstarted : s'.started = s.started) (hcancelled : s'.cancelled = s.cancelled) : Seated s' where
  once c := by rw [hstarted, hcancelled, hwaiting, harrivals]; exact h.once c
  clients := by rw [hclients, hstarted]; exact h.clients
  daemons := by rw [hclients]; exact h.daemons
  slots := by simp only [handshaking, hclients]; exact h.slots
  waits := by simp only [waitingOn, hwaiting]; exact h.waits
  full := by simp only [Full, hwaiting, hasHandshakeSlot, handshaking, hclients]; exact h.full

/-- A connection that was just accepted is nowhere yet. -/
theorem Accounted.fresh (h : Accounted s) (c : ℕ) :
    s.started.count c + s.cancelled.count c + (s.waiting.map Waiting.connection).count c +
      (if s.arrivals + 1 = c then 1 else 0) = if 0 < c ∧ c ≤ s.arrivals + 1 then 1 else 0 := by
  rw [h.once c]
  split_ifs <;> omega

/-- A connection that is refused was never started. -/
theorem Accounted.cancels (h : Accounted s) : Accounted
    { s with arrivals := s.arrivals + 1, cancelled := s.cancelled ++ [s.arrivals + 1] } where
  clients := h.clients
  daemons := h.daemons
  once c := by
    refine Eq.trans ?_ (h.fresh c)
    simp only [List.count_append, List.count_cons, List.count_nil, beq_iff_eq]
    omega

/-- One that finds no slot waits. -/
theorem Accounted.waits (h : Accounted s) (address : List UInt8) (viaRelay : Bool) : Accounted
    { s with
      arrivals := s.arrivals + 1
      waiting := s.waiting ++ [⟨s.arrivals + 1, address, viaRelay⟩] } where
  clients := h.clients
  daemons := h.daemons
  once c := by
    refine Eq.trans ?_ (h.fresh c)
    simp only [List.map_append, List.map_cons, List.map_nil, List.count_append, List.count_cons,
      List.count_nil, beq_iff_eq]
    omega

/-- One that finds a slot is a client. -/
theorem Accounted.starts (h : Accounted s) (address : List UInt8) (viaRelay : Bool) : Accounted
    ({ s with arrivals := s.arrivals + 1 }.start ⟨s.arrivals + 1, address, viaRelay⟩) := by
  have hstart := Accounted.start (s := { s with arrivals := s.arrivals + 1 })
    (h.waits address viaRelay)
  rwa [List.append_nil] at hstart

/-- **A new connection starts, waits or is refused, and the limit holds.** -/
theorem Seated.accept (h : Seated s) (viaRelay isLocal : Bool) (address : List UInt8) :
    Seated (s.accept viaRelay isLocal address) := by
  have hcancelled : Seated
      { s with arrivals := s.arrivals + 1, cancelled := s.cancelled ++ [s.arrivals + 1] } :=
    { toAccounted := h.toAccounted.cancels
      slots := h.slots
      waits := h.waits
      full := h.full }
  rw [RemoteService.accept]
  split_ifs with hlocal hslot hroom
  · exact hcancelled
  · have hnone : s.clients.get? (s.arrivals + 1) = none := h.of_none (by omega)
    exact
      { toAccounted := h.toAccounted.starts address viaRelay
        slots := slots_start hnone h.slots hslot
        waits := h.waits
        full := fun w hw => no_slot_start hnone (h.full w hw) }
  · exact
      { toAccounted := h.toAccounted.waits address viaRelay
        slots := h.slots
        waits := by
          intro path
          have hpath := h.waits path
          simp only [waitingOn, List.countP_append, List.countP_singleton, beq_iff_eq]
            at hpath hroom ⊢
          split_ifs with heq
          · rw [← heq]
            exact hroom
          · exact hpath
        full := by
          intro w hw
          rcases List.mem_append.mp hw with hw | hw
          · exact h.full w hw
          · rw [List.mem_singleton.mp hw]
            exact eq_false_of_ne_true hslot }
  · exact hcancelled

/-- A connection taken out of the list is in it no more, and the others are as they were. -/
theorem count_others (waiting : List Waiting) (connection c : ℕ) :
    ((waiting.filter fun next => next.connection ≠ connection).map Waiting.connection).count c =
      if connection = c then 0 else (waiting.map Waiting.connection).count c := by
  have hmap : (waiting.filter fun next => next.connection ≠ connection).map Waiting.connection =
      (waiting.map Waiting.connection).filter fun c => c ≠ connection := by
    rw [List.filter_map]
    rfl
  rw [hmap]
  split_ifs with hc
  · exact List.count_eq_zero_of_not_mem fun hmem => by simp [hc] at hmem
  · exact List.count_filter (by simpa using Ne.symm hc)

/-- One that waited too long leaves the queue. -/
theorem Accounted.waitTimeout (h : Accounted s) {connection : ℕ}
    (hmem : connection ∈ s.waiting.map Waiting.connection) : Accounted
      { s with
        waiting := s.waiting.filter fun next => next.connection ≠ connection
        cancelled := s.cancelled ++ [connection] } where
  clients := h.clients
  daemons := h.daemons
  once c := by
    have honce := h.once c
    have hcount := List.count_pos_iff.mpr hmem
    refine Eq.trans ?_ honce
    rw [count_others, List.count_append, List.count_singleton]
    by_cases hc : connection = c
    · subst hc
      simp only [BEq.rfl, if_true]
      split_ifs at honce <;> omega
    · simp [hc]

/-- And takes no slot. -/
theorem Seated.waitTimeout (h : Seated s) (connection : ℕ) : Seated (s.waitTimeout connection) := by
  rw [RemoteService.waitTimeout]
  split_ifs with hmem
  · exact
      { toAccounted := h.toAccounted.waitTimeout hmem
        slots := h.slots
        waits := fun path => le_trans (List.filter_sublist.countP_le) (h.waits path)
        full := fun w hw => h.full w (List.mem_of_mem_filter hw) }
  · exact h

/-! ## Clients that change

A mode that changes from a handshake gives the slot to one that waits. -/

/-- A client that keeps its mode keeps its seat. -/
theorem Seated.update (h : Seated s) {client client' : Client P}
    (hget : s.clients.get? id = some client)
    (hslots : ∀ path, client'.slots path = client.slots path)
    (hdaemon : client'.hasDaemon → client'.mode.deviceID.isSome) :
    Seated { s with clients := s.clients.insert id client' } := by
  have hsame : ∀ path, { s with clients := s.clients.insert id client' }.handshaking path =
      s.handshaking path := by
    intro path
    have hcount := handshaking_insert hget client' path
    rw [hslots path] at hcount
    exact Nat.add_right_cancel hcount
  exact
    { toAccounted := h.toAccounted.insert hget hdaemon
      waits := h.waits
      slots := fun path => (hsame path).trans_le (h.slots path)
      full := fun w hw => no_slot_of_le (h.full w hw) (hsame w.viaRelay).ge }

/-- The client's flags may change, not what it is. -/
theorem Seated.flags (h : Seated s) {client client' : Client P}
    (hget : s.clients.get? id = some client) (hmode : client'.mode = client.mode)
    (hpath : client'.viaRelay = client.viaRelay) (hdaemon : client'.hasDaemon = client.hasDaemon) :
    Seated { s with clients := s.clients.insert id client' } := by
  refine h.update hget (fun path => ?_) ?_
  · rw [Client.slots, Client.slots, hmode, hpath]
  · rw [hdaemon, hmode]
    exact h.daemons id client hget

/-- A client that is removed leaves a seat, if it had one. -/
theorem Standing.erase (h : Standing s) (id : ℕ) :
    Standing { s with clients := s.clients.erase id } where
  toAccounted := h.toAccounted.erase id
  waits := h.waits
  slots path := by
    refine le_trans ?_ (h.slots path)
    exact List.filter_sublist.countP_le

/-- A client that is past its handshake leaves no slot. -/
theorem handshaking_erase_of_authenticated {client : Client P}
    (hget : s.clients.get? id = some client) (hauth : client.mode.isAuthenticated = true)
    (path : Bool) :
    { s with clients := s.clients.erase id }.handshaking path = s.handshaking path := by
  have hcount := handshaking_erase hget path
  rw [Client.slots, hauth] at hcount
  exact hcount.symm

/-- One that was authenticated had none. -/
theorem Seated.erase_authenticated (h : Seated s) {client : Client P}
    (hget : s.clients.get? id = some client) (hauth : client.mode.isAuthenticated = true) :
    Seated { s with clients := s.clients.erase id } where
  toStanding := h.toStanding.erase id
  full w hw := no_slot_of_le (h.full w hw)
    (handshaking_erase_of_authenticated hget hauth w.viaRelay).ge

/-- A client that pairs takes no slot. -/
theorem Mode.isAuthenticated_of_isPairing {mode : Mode P} (h : mode.isPairing = true) :
    mode.isAuthenticated = true := by
  cases mode with
  | handshaking => cases h
  | pairing _ _ _ => rfl
  | session _ => rfl

/-- Nor does one whose device is known. -/
theorem Mode.isAuthenticated_of_deviceID {mode : Mode P} (h : mode.deviceID.isSome = true) :
    mode.isAuthenticated = true := by
  cases mode with
  | handshaking => cases h
  | pairing _ _ _ => cases h
  | session _ => rfl

/-! ## The end of a link -/

/-- What `failed` does to a service whose window lost its active client. -/
def Keeps (failed : RemoteService P → List UInt8 → RemoteService P) : Prop :=
  ∀ s address, Seated s → Seated (failed s address)

/-- However a client ends, its seat is given on. -/
theorem Seated.closedWith {failed : RemoteService P → List UInt8 → RemoteService P}
    (hfailed : Keeps failed) (h : Seated s) (id : ℕ) : Seated (s.closedWith failed id) := by
  rw [RemoteService.closedWith]
  cases hget : s.clients.get? id with
  | none => exact h
  | some client =>
    simp only
    split_ifs with hlinger hactive
    · have hauth := Mode.isAuthenticated_of_deviceID (h.daemons id client hget hlinger.1)
      exact (h.erase_authenticated hget hauth).of_same rfl rfl rfl rfl rfl
    · exact hfailed _ _ (h.toStanding.erase id).handshakeEnded
    · exact (h.toStanding.erase id).handshakeEnded

/-- So it is when it is closed. -/
theorem Seated.closeWith {failed : RemoteService P → List UInt8 → RemoteService P}
    (hfailed : Keeps failed) (h : Seated s) (id : ℕ) : Seated (s.closeWith failed id) := by
  rw [RemoteService.closeWith]
  cases hget : s.clients.get? id with
  | none => exact h
  | some client =>
    simp only
    split_ifs with hdraining hpending
    · exact h
    · exact h.flags hget rfl rfl rfl
    · exact h.closedWith hfailed id

/-- And when it is closed for its mode. -/
theorem Seated.closeIfWith {failed : RemoteService P → List UInt8 → RemoteService P}
    (hfailed : Keeps failed) (h : Seated s) (p : Mode P → Bool) (id : ℕ) :
    Seated (s.closeIfWith failed p id) := by
  rw [RemoteService.closeIfWith]
  split_ifs
  · exact h.closeWith hfailed id
  · exact h

/-- One after the other. -/
theorem Seated.foldl_closeIfWith {failed : RemoteService P → List UInt8 → RemoteService P}
    (hfailed : Keeps failed) (p : Mode P → Bool) :
    ∀ (ids : List ℕ) {s : RemoteService P}, Seated s →
      Seated (ids.foldl (RemoteService.closeIfWith failed p) s)
  | [], _, h => h
  | id :: ids, _, h => Seated.foldl_closeIfWith hfailed p ids (h.closeIfWith hfailed p id)

/-- All that are in a mode at once. -/
theorem Seated.closeEach {failed : RemoteService P → List UInt8 → RemoteService P}
    (hfailed : Keeps failed) (h : Seated s) (p : Mode P → Bool) :
    Seated (s.closeEach failed p) :=
  Seated.foldl_closeIfWith hfailed p s.clients.keys h

/-- A failed attempt may close those that pair, and takes no seat. -/
theorem keeps_recordPairingFailure : Keeps (P := P) recordPairingFailure := by
  intro s address h
  rw [recordPairingFailure]
  cases hpairing : s.pairing with
  | none => exact h
  | some window =>
    simp only
    split_ifs with hrelayed hspent hlimit
    · exact h.of_same rfl rfl rfl rfl rfl
    · exact h.of_same rfl rfl rfl rfl rfl
    · have hended : Seated { s with pairing := none } := h.of_same rfl rfl rfl rfl rfl
      exact hended.closeEach (fun _ _ h => h) _
    · exact h.of_same rfl rfl rfl rfl rfl

/-- The end of a link keeps the limit. -/
theorem Seated.closed (h : Seated s) (id : ℕ) : Seated (s.closed id) :=
  h.closedWith keeps_recordPairingFailure id

/-- So does closing it. -/
theorem Seated.close (h : Seated s) (id : ℕ) : Seated (s.close id) :=
  h.closeWith keeps_recordPairingFailure id

/-! ## Frames -/

/-- Starting those that wait leaves those that were started as they are. -/
theorem Accounted.get?_startWaiting : ∀ (rest passed : List Waiting) {s : RemoteService P},
    Accounted { s with waiting := passed ++ rest } → id ∈ s.started →
      (s.startWaiting passed rest).clients.get? id = s.clients.get? id
  | [], _, _, _, _ => rfl
  | next :: rest, passed, s, h, hid => by
      have hnot : next.connection ∉ s.started :=
        h.notMem_started (List.mem_append_right _ List.mem_cons_self)
      have hne : next.connection ≠ id := fun heq => hnot (heq ▸ hid)
      rw [RemoteService.startWaiting]
      split_ifs with hslot
      · refine (Accounted.get?_startWaiting rest passed h.start (List.mem_append_left _ hid)).trans
          ?_
        exact Dict.get?_insert_of_ne _ hne _
      · refine Accounted.get?_startWaiting rest (passed ++ [next]) ?_ hid
        rwa [List.append_assoc, List.singleton_append]

/-- Those that were started before are not touched when others start. -/
theorem Accounted.get?_handshakeEnded (h : Accounted s) (hid : id ∈ s.started) :
    s.handshakeEnded.clients.get? id = s.clients.get? id :=
  Accounted.get?_startWaiting s.waiting [] h hid

/-- A client may change all but mode, path and daemon. -/
theorem Seated.withClient (h : Seated s) (id : ℕ) {f : Client P → Client P}
    (hf : ∀ client, (f client).mode = client.mode ∧ (f client).viaRelay = client.viaRelay ∧
      (f client).hasDaemon = client.hasDaemon) : Seated (s.withClient id f) := by
  rw [RemoteService.withClient]
  cases hget : s.clients.get? id with
  | none => exact h
  | some client =>
    obtain ⟨hmode, hpath, hdaemon⟩ := hf client
    exact h.flags hget hmode hpath hdaemon

/-- Sending takes no seat. -/
theorem Seated.send (h : Seated s) (id : ℕ) : Seated (s.send id) := by
  refine h.withClient id fun client => ?_
  split_ifs <;> exact ⟨rfl, rfl, rfl⟩

/-- Nor does a reply. -/
theorem Seated.reply (h : Seated s) (id tag : ℕ) : Seated (s.reply id tag) := by
  rw [RemoteService.reply]
  split_ifs
  · exact h.send id
  · exact h

/-- A client that is authenticated gives its seat up. -/
theorem Standing.authenticated (h : Standing s) {client client' : Client P}
    (hget : s.clients.get? id = some client) (hauth : client'.mode.isAuthenticated = true)
    (hdaemon : client'.hasDaemon → client'.mode.deviceID.isSome) :
    Standing { s with clients := s.clients.insert id client' } where
  toAccounted := h.toAccounted.insert hget hdaemon
  waits := h.waits
  slots path := by
    have hcount := handshaking_insert hget client' path
    have hlimit := h.slots path
    rw [Client.slots, Client.slots, hauth, Bool.not_true, Bool.false_and] at hcount
    simp only [Bool.false_eq_true, if_false] at hcount
    omega

/-- The first change of a mode ends a handshake, and those that wait are looked at. -/
theorem setMode_first_eq {client : Client P} {mode : Mode P}
    (hget : s.clients.get? id = some client) (hfirst : client.mode = .handshaking)
    (hauth : mode.isAuthenticated = true) :
    s.setMode id mode =
      { s with clients := s.clients.insert id { client with mode } }.handshakeEnded := by
  rw [RemoteService.setMode, hget]
  exact if_pos ⟨by rw [hfirst]; exact Bool.false_ne_true, hauth⟩

/-- Only a device has a daemon, so a client that handshakes has none. -/
theorem Accounted.first (h : Accounted s) {client : Client P}
    (hget : s.clients.get? id = some client) (hfirst : client.mode = .handshaking) :
    client.hasDaemon = false := by
  rw [Bool.eq_false_iff]
  intro hdaemon
  have hsome := h.daemons id client hget hdaemon
  rw [hfirst] at hsome
  cases hsome

/-- A first frame that is good. -/
theorem Seated.setMode_first (h : Seated s) {client : Client P} {mode : Mode P}
    (hget : s.clients.get? id = some client) (hfirst : client.mode = .handshaking)
    (hauth : mode.isAuthenticated = true) :
    Seated (s.setMode id mode) ∧
      (s.setMode id mode).clients.get? id = some { client with mode } := by
  have hdaemon : client.hasDaemon → mode.deviceID.isSome := fun hdaemon =>
    absurd hdaemon (Bool.eq_false_iff.mp (h.first hget hfirst))
  have hstanding : Standing { s with clients := s.clients.insert id { client with mode } } :=
    h.toStanding.authenticated hget hauth hdaemon
  rw [setMode_first_eq hget hfirst hauth]
  refine ⟨hstanding.handshakeEnded, ?_⟩
  rw [hstanding.get?_handshakeEnded (h.clients id client hget)]
  exact Dict.get?_insert_self _ _ _

/-- A client that is refused gives its seat up as well. -/
theorem Seated.refuse (h : Seated s) (id tag : ℕ) : Seated ((s.reply id tag).close id) :=
  (h.reply id tag).close id

/-- **Authenticating frees a seat or ends the client.** -/
theorem Seated.authenticate (h : Seated s) {client : Client P}
    (hget : s.clients.get? id = some client) (hfirst : client.mode = .handshaking) (tag : ℕ)
    (deviceID : Option (List UInt8)) (isProven isDaemonRunning : Bool) :
    Seated (s.authenticate id tag deviceID isProven isDaemonRunning) := by
  unfold RemoteService.authenticate
  cases deviceID with
  | none => exact h.refuse id tag
  | some deviceID =>
    simp only
    split_ifs
    · exact h.refuse id tag
    · obtain ⟨hmode, hclient⟩ : Seated (s.setMode id (.session deviceID)) ∧ _ :=
        h.setMode_first hget hfirst rfl
      rw [RemoteService.withClient, hclient]
      exact hmode.update hclient (fun _ => rfl) fun _ => rfl

/-- A window that runs out takes no seat. -/
theorem Seated.expirePairingIfNeeded (h : Seated s) : Seated s.expirePairingIfNeeded := by
  rw [RemoteService.expirePairingIfNeeded]
  cases s.pairing with
  | none => exact h
  | some window =>
    simp only
    split_ifs
    · exact h.of_same rfl rfl rfl rfl rfl
    · exact h

/-- Clients stay as they are while it does. -/
theorem expirePairingIfNeeded_clients (s : RemoteService P) :
    s.expirePairingIfNeeded.clients = s.clients := by
  rw [RemoteService.expirePairingIfNeeded]
  cases s.pairing with
  | none => rfl
  | some window =>
    simp only
    split_ifs <;> rfl

/-- An attempt that begins leaves the clients alone. -/
theorem Seated.beginPairing (h : Seated s) (id : ℕ) (client : Client P)
    (deviceID share : List UInt8) (random : ℕ) :
    Seated (s.beginPairing id client deviceID share random).1 ∧
      ∀ exchange, (s.beginPairing id client deviceID share random).2 = .ok exchange →
        (s.beginPairing id client deviceID share random).1.clients = s.clients := by
  have hexpired := h.expirePairingIfNeeded
  rcases s.beginPairing_cases id client deviceID share random with
    ⟨refusal, heq⟩ | ⟨window, -, -, -, heq | ⟨exchange, -, heq⟩⟩
  · rw [heq]
    exact ⟨hexpired, fun _ herr => nomatch herr⟩
  · have hspent : Seated
        { s.expirePairingIfNeeded with pairing := some (window.spend id client.viaRelay) } :=
      hexpired.of_same rfl rfl rfl rfl rfl
    rw [heq]
    exact ⟨keeps_recordPairingFailure _ client.address hspent, fun _ herr => nomatch herr⟩
  · rw [heq]
    exact ⟨hexpired.of_same rfl rfl rfl rfl rfl, fun _ _ => expirePairingIfNeeded_clients s⟩

/-- Beginning to pair frees a seat, or a refusal does. -/
theorem Seated.startPairing (h : Seated s) {client : Client P}
    (hget : s.clients.get? id = some client) (hfirst : client.mode = .handshaking) (tag : ℕ)
    (message : Option (List UInt8 × List UInt8 × List UInt8)) (random : ℕ) :
    Seated (s.startPairing id tag client message random) := by
  unfold RemoteService.startPairing
  match message with
  | none => exact h.refuse id tag
  | some (deviceID, deviceName, share) =>
    obtain ⟨hbegun, hclients⟩ := h.beginPairing id client deviceID share random
    simp only
    cases hresult : s.beginPairing id client deviceID share random with
    | mk s' result =>
      rw [hresult] at hbegun hclients
      cases result with
      | error _ => exact hbegun.refuse id tag
      | ok exchange =>
        have hget' : s'.clients.get? id = some client := by
          rw [← hget]
          exact congrArg (fun d => Dict.get? d id) (hclients exchange rfl)
        exact (hbegun.setMode_first hget' hfirst rfl).1.send id

/-- So the first frame ends a handshake either way. -/
theorem Seated.handleFirst (h : Seated s) {client : Client P}
    (hget : s.clients.get? id = some client) (hfirst : client.mode = .handshaking) (tag : ℕ)
    (frame : Frame) (random : ℕ) :
    Seated (s.handleFirst id tag client frame random) := by
  unfold RemoteService.handleFirst
  split
  · split_ifs
    · exact h.authenticate hget hfirst tag _ _ _
    · exact h.refuse id tag
  · split_ifs
    · exact h.startPairing hget hfirst tag _ random
    · exact h.refuse id tag
  · exact h.close id

/-- Frames of a session take no seat. -/
theorem Seated.handleSession (h : Seated s) (id tag : ℕ) (frame : Frame) :
    Seated (s.handleSession id tag frame) := by
  rw [RemoteService.handleSession.eq_def]
  split
  · exact h.close id
  · exact h
  · exact h
  · exact h.reply id tag

/-! ## The end of a pairing -/

/-- What closing leaves of a client. -/
def Client.afterClose (client : Client P) : Option (Client P) :=
  if client.isDraining then some client
  else if client.isReady ∧ 0 < client.pending then some { client with isDraining := true }
  else none

/-- Closes whoever is pairing. -/
def Client.endPairing (client : Client P) : Option (Client P) :=
  if client.mode.isPairing then client.afterClose else some client

/-- The end of a pairing ends it once. -/
theorem endPairing_endPairing (client : Client P) :
    client.endPairing.bind Client.endPairing = client.endPairing := by
  by_cases hp : client.mode.isPairing = true
  · rw [Client.endPairing, if_pos hp, Client.afterClose]
    split_ifs with hdraining hpending
    · simp [Client.endPairing, Client.afterClose, hp, hdraining]
    · simp [Client.endPairing, Client.afterClose, hp]
    · rfl
  · simp [Client.endPairing, hp]

/-- A client that pairs has no link to the daemon. -/
theorem Accounted.not_hasDaemon (h : Accounted s) {client : Client P}
    (hget : s.clients.get? id = some client) (hp : client.mode.isPairing = true) :
    ¬ client.hasDaemon = true := by
  intro hdaemon
  have hsome := h.daemons id client hget hdaemon
  cases hmode : client.mode with
  | handshaking => rw [hmode] at hsome; cases hsome
  | pairing _ _ _ => rw [hmode] at hsome; cases hsome
  | session _ => rw [hmode] at hp; cases hp

/-- Closing a client that is pairing frees no slot, so starts nobody. -/
theorem Seated.closeWith_pairing (h : Seated s) {client : Client P}
    (hget : s.clients.get? id = some client) (hp : client.mode.isPairing = true) :
    (∀ path, (s.closeWith (fun s _ => s) id).handshaking path = s.handshaking path) ∧
      ∀ id', (s.closeWith (fun s _ => s) id).clients.get? id' =
        if id = id' then client.afterClose else s.clients.get? id' := by
  have hauth := Mode.isAuthenticated_of_isPairing hp
  have hdaemon : ¬ (client.hasDaemon = true ∧ client.heldSessions ≠ []) :=
    fun hlinger => h.not_hasDaemon hget hp hlinger.1
  rw [RemoteService.closeWith, hget]
  simp only [Client.afterClose]
  split_ifs with hdraining hpending
  · refine ⟨fun _ => rfl, fun id' => ?_⟩
    split_ifs with hid
    · rw [← hid, hget]
    · rfl
  · refine ⟨fun path => ?_, fun id' => Dict.get?_insert _ _ _ _⟩
    exact Nat.add_right_cancel (handshaking_insert hget { client with isDraining := true } path)
  · have herase := (h.erase_authenticated hget hauth).full.handshakeEnded
    have hclosed : s.closedWith (fun s _ => s) id = { s with clients := s.clients.erase id } := by
      rw [RemoteService.closedWith, hget]
      simp only [if_neg hdaemon, ite_self]
      exact herase
    rw [hclosed]
    exact ⟨handshaking_erase_of_authenticated hget hauth, fun id' => Dict.get?_erase _ _ _⟩

/-- Closing a client that pairs moves no other and takes no seat. -/
theorem Seated.closeIf_pairing (h : Seated s) (id id' : ℕ) :
    (∀ path, (s.closeIfWith (fun s _ => s) Mode.isPairing id).handshaking path =
      s.handshaking path) ∧
    (s.closeIfWith (fun s _ => s) Mode.isPairing id).clients.get? id' =
      if id = id' then (s.clients.get? id').bind Client.endPairing else s.clients.get? id' := by
  rw [RemoteService.closeIfWith]
  split_ifs with hany hid hid
  · obtain ⟨client, hget, hp⟩ := (Option.any_eq_true _ _).mp hany
    obtain ⟨hcount, hclients⟩ := h.closeWith_pairing hget hp
    refine ⟨hcount, ?_⟩
    rw [hclients id', if_pos hid, ← hid, hget, Option.bind_some, Client.endPairing, if_pos hp]
  · obtain ⟨client, hget, hp⟩ := (Option.any_eq_true _ _).mp hany
    obtain ⟨hcount, hclients⟩ := h.closeWith_pairing hget hp
    exact ⟨hcount, (hclients id').trans (if_neg hid)⟩
  · refine ⟨fun _ => rfl, ?_⟩
    rw [← hid]
    cases hget : s.clients.get? id with
    | none => rfl
    | some client =>
      rw [hget, Option.any_some] at hany
      rw [Option.bind_some, Client.endPairing, if_neg hany]
  · exact ⟨fun _ => rfl, rfl⟩

/-- Nor does closing one after the other. -/
theorem Seated.foldl_closeIf_pairing (id : ℕ) : ∀ (ids : List ℕ) {s : RemoteService P}, Seated s →
    (∀ path,
      (ids.foldl (RemoteService.closeIfWith (fun s _ => s) Mode.isPairing) s).handshaking path =
      s.handshaking path) ∧
    (ids.foldl (RemoteService.closeIfWith (fun s _ => s) Mode.isPairing) s).clients.get? id =
      if id ∈ ids then (s.clients.get? id).bind Client.endPairing else s.clients.get? id
  | [], _, _ => ⟨fun _ => rfl, rfl⟩
  | id' :: ids, s, h => by
      obtain ⟨hcount, hclients⟩ := h.closeIf_pairing id' id
      obtain ⟨hcounts, hrest⟩ := Seated.foldl_closeIf_pairing id ids
        (h.closeIfWith (fun _ _ h => h) Mode.isPairing id')
      refine ⟨fun path => (hcounts path).trans (hcount path), hrest.trans ?_⟩
      rw [hclients]
      by_cases hid : id' = id
      · simp only [hid, List.mem_cons, true_or, if_true]
        split_ifs
        · cases s.clients.get? id with
          | none => rfl
          | some client => exact endPairing_endPairing client
        · rfl
      · simp only [if_neg hid, List.mem_cons, Ne.symm hid, false_or]

/-- Nor closing all of them. -/
theorem Seated.closeEach_pairing (h : Seated s) (id : ℕ) :
    (∀ path, (s.closeEach (fun s _ => s) Mode.isPairing).handshaking path = s.handshaking path) ∧
      (s.closeEach (fun s _ => s) Mode.isPairing).clients.get? id =
        (s.clients.get? id).bind Client.endPairing := by
  obtain ⟨hcount, hclients⟩ := Seated.foldl_closeIf_pairing id s.clients.keys h
  refine ⟨hcount, hclients.trans ?_⟩
  split_ifs with hmem
  · rfl
  · rw [Dict.get?_eq_none_iff.mpr hmem]
    rfl

/-- A wrong confirmation of the active client spends the last local attempt. -/
def spends (s : RemoteService P) (id : ℕ) (exchange : P.Exchange)
    (confirmation : List UInt8) : Bool :=
  match s.pairing with
  | none => false
  | some window =>
    window.activeClient == some id && (P.verifyConfirmation exchange confirmation).isNone &&
      !window.activeClientViaRelay && decide (pairingAttemptLimit ≤ window.attemptsUsed)

/-- A failed attempt closes those that pair when it was the last one. -/
theorem Seated.recordPairingFailure (h : Seated s) {window : PairingWindow}
    (hpairing : s.pairing = some window) {client : Client P}
    (hget : s.clients.get? id = some client) (hp : client.mode.isPairing = true)
    (address : List UInt8) :
    (∀ path, (s.recordPairingFailure address).handshaking path = s.handshaking path) ∧
      (s.recordPairingFailure address).clients.get? id =
        if ¬ window.activeClientViaRelay ∧ pairingAttemptLimit ≤ window.attemptsUsed then
          client.afterClose else some client := by
  rw [RemoteService.recordPairingFailure, hpairing]
  simp only
  by_cases hrelayed : window.activeClientViaRelay = true
  · have hnot : ¬ (¬ window.activeClientViaRelay ∧ pairingAttemptLimit ≤ window.attemptsUsed) :=
      fun hspent => hspent.1 hrelayed
    rw [if_neg hnot, if_pos hrelayed]
    split_ifs
    · exact ⟨fun _ => rfl, hget⟩
    · exact ⟨fun _ => rfl, hget⟩
  · rw [if_neg hrelayed]
    by_cases hlimit : pairingAttemptLimit ≤ window.attemptsUsed
    · have hended : Seated { s with pairing := none } := h.of_same rfl rfl rfl rfl rfl
      obtain ⟨hcount, hclients⟩ := hended.closeEach_pairing id
      rw [if_pos hlimit, if_pos ⟨hrelayed, hlimit⟩]
      refine ⟨hcount, hclients.trans ?_⟩
      change (s.clients.get? id).bind Client.endPairing = client.afterClose
      rw [hget, Option.bind_some, Client.endPairing, if_pos hp]
    · rw [if_neg hlimit, if_neg fun hspent => hlimit hspent.2]
      exact ⟨fun _ => rfl, hget⟩

/-- Finishing a pairing frees no slot either; the client is there still, unless the window closed on
it. -/
theorem Seated.finishPairing (h : Seated s) {client : Client P}
    (hget : s.clients.get? id = some client) (hp : client.mode.isPairing = true)
    (exchange : P.Exchange) (deviceID deviceName confirmation : List UInt8) :
    Seated (s.finishPairing id client exchange deviceID deviceName confirmation).1 ∧
    (∀ path,
      (s.finishPairing id client exchange deviceID deviceName confirmation).1.handshaking path =
      s.handshaking path) ∧
    (s.finishPairing id client exchange deviceID deviceName confirmation).1.clients.get? id =
      if s.spends id exchange confirmation then client.afterClose else some client := by
  rw [RemoteService.finishPairing, spends]
  cases hpairing : s.pairing with
  | none => exact ⟨h, fun _ => rfl, hget⟩
  | some window =>
    rw [Option.bind_some]
    by_cases hactive : window.activeClient = some id
    · rw [if_pos hactive]
      cases P.verifyConfirmation exchange confirmation with
      | none =>
        obtain ⟨hcount, hclients⟩ := h.recordPairingFailure hpairing hget hp client.address
        refine ⟨keeps_recordPairingFailure s client.address h, hcount, hclients.trans ?_⟩
        simp [hactive]
      | some sessionKey => exact ⟨h.of_same rfl rfl rfl rfl rfl, fun _ => rfl, by simpa using hget⟩
    · rw [if_neg hactive]
      exact ⟨h, fun _ => rfl, by simpa [hactive] using hget⟩

/-- The client as it comes back from pairing. -/
def Client.back (client : Client P) : Client P := { client with mode := .handshaking }

/-- The only way back to a handshake is the end of a pairing. -/
theorem setMode_back {client : Client P} (hget : s.clients.get? id = some client) :
    s.setMode id .handshaking = { s with clients := s.clients.insert id client.back } := by
  rw [RemoteService.setMode, hget]
  exact if_neg fun hauth => Bool.false_ne_true hauth.2

/-- It takes a slot of its path. -/
theorem handshaking_back {client : Client P} (hget : s.clients.get? id = some client)
    (hp : client.mode.isPairing = true) (path : Bool) :
    { s with clients := s.clients.insert id client.back }.handshaking path =
      s.handshaking path + if client.viaRelay = path then 1 else 0 := by
  have hcount := handshaking_insert hget client.back path
  rw [Client.slots, Mode.isAuthenticated_of_isPairing hp] at hcount
  refine hcount.trans ?_
  simp [Client.slots, Client.back, Mode.isAuthenticated]

/-- Such a client was started before. -/
theorem Accounted.back (h : Accounted s) {client : Client P}
    (hget : s.clients.get? id = some client) (hp : client.mode.isPairing = true) :
    Accounted { s with clients := s.clients.insert id client.back } := by
  have hnone : ¬ client.hasDaemon = true := h.not_hasDaemon hget hp
  exact h.insert hget fun hdaemon => absurd hdaemon hnone

/-- **A client that goes back to its handshake needs a seat that is free.** -/
theorem Seated.back (h : Seated s) {client : Client P} (hget : s.clients.get? id = some client)
    (hp : client.mode.isPairing = true) (hslot : s.hasHandshakeSlot client.viaRelay = true) :
    Seated { s with clients := s.clients.insert id client.back } where
  toAccounted := h.toAccounted.back hget hp
  waits := h.waits
  slots path := by
    rw [handshaking_back hget hp]
    split_ifs with hpath
    · rw [hasHandshakeSlot_iff, hpath] at hslot
      exact hslot
    · exact h.slots path
  full w hw := by
    refine no_slot_of_le (h.full w hw) ?_
    rw [handshaking_back hget hp]
    omega

/-- With nothing to flush it is gone at once, and its slot with it. -/
theorem Seated.back_close (h : Seated s) {client : Client P}
    (hget : s.clients.get? id = some client) (hp : client.mode.isPairing = true)
    (hdraining : client.isDraining = false) (hpending : client.pending = 0) :
    Seated ({ s with clients := s.clients.insert id client.back }.close id) := by
  have hdaemon : ¬ (client.hasDaemon = true ∧ client.heldSessions ≠ []) :=
    fun hlinger => h.not_hasDaemon hget hp hlinger.1
  have herase := (h.toStanding.erase id).handshakeEnded
  rw [RemoteService.close, RemoteService.closeWith]
  simp only [Dict.get?_insert_self, Client.back, hdraining, hpending, Nat.lt_irrefl, and_false,
    Bool.false_eq_true, if_false]
  rw [RemoteService.closedWith]
  simp only [Dict.get?_insert_self, Dict.erase_insert, if_neg hdaemon]
  split_ifs
  · exact keeps_recordPairingFailure _ _ herase
  · exact herase

/-- A client that is gone has no mode. -/
theorem setMode_of_none (hnone : s.clients.get? id = none) (mode : Mode P) :
    s.setMode id mode = s := by
  rw [RemoteService.setMode, hnone]

/-- What closing leaves of a client is the client, on its path, over once its frames have left. -/
theorem Client.afterClose_eq_some {client client' : Client P}
    (h : client.afterClose = some client') :
    client'.mode = client.mode ∧ client'.viaRelay = client.viaRelay ∧
    client'.isDraining = true := by
  rw [Client.afterClose] at h
  split_ifs at h with hdraining hpending
  · cases h
    exact ⟨rfl, rfl, hdraining⟩
  · cases h
    exact ⟨rfl, rfl, rfl⟩

/-- So a confirmation keeps the limit where a seat is free for it. -/
theorem Seated.handlePairing (h : Seated s) {client : Client P}
    {deviceID deviceName : List UInt8} {exchange : P.Exchange}
    (hget : s.clients.get? id = some client)
    (hmode : client.mode = .pairing deviceID deviceName exchange)
    (hdraining : client.isDraining = false) {tag : ℕ} {frame : Frame}
    (hroom : ∀ confirmation, frame = .pairFinish (some confirmation) →
      s.hasHandshakeSlot client.viaRelay = true ∨
        (client.pending = 0 ∧ (tag = 0 ∨ s.spends id exchange confirmation = true))) :
    Seated (s.handlePairing id tag client deviceID deviceName exchange frame) := by
  have hp : client.mode.isPairing = true := by rw [hmode]; rfl
  unfold RemoteService.handlePairing
  split
  case h_2 => exact h.close id
  case h_1 confirmation =>
  obtain ⟨hseated, hcount, hclients⟩ :=
    h.finishPairing hget hp exchange deviceID deviceName confirmation
  generalize (s.finishPairing id client exchange deviceID deviceName confirmation).1 = s'
    at hseated hcount hclients
  simp only
  cases hget' : s'.clients.get? id with
  | none =>
    rw [setMode_of_none hget']
    exact hseated.refuse id tag
  | some client' =>
    rw [hget'] at hclients
    rw [setMode_back hget']
    rcases hroom confirmation rfl with hslot | ⟨hpending, hnone⟩
    · have hsame : client'.mode = client.mode ∧ client'.viaRelay = client.viaRelay := by
        split_ifs at hclients
        · obtain ⟨hmode', hpath', -⟩ := Client.afterClose_eq_some hclients.symm
          exact ⟨hmode', hpath'⟩
        · cases hclients
          exact ⟨rfl, rfl⟩
      have hslot' : s'.hasHandshakeSlot client'.viaRelay = true := by
        rw [hasHandshakeSlot_iff, hsame.2, hcount]
        exact hasHandshakeSlot_iff.mp hslot
      exact (hseated.back hget' (hsame.1 ▸ hp) hslot').refuse id tag
    · split_ifs at hclients with hspends
      · rw [Client.afterClose, hdraining, hpending] at hclients
        simp at hclients
      · cases hclients
        have htag : tag = 0 := hnone.resolve_right hspends
        rw [htag]
        exact hseated.back_close hget' hp hdraining hpending

/-! ## Events -/

/-- Closing for a mode keeps the limit. -/
theorem Seated.closeIf (h : Seated s) (id : ℕ) (p : Mode P → Bool) : Seated (s.closeIf id p) :=
  h.closeIfWith keeps_recordPairingFailure p id

/-- Managing takes no seat. -/
theorem Seated.perform (h : Seated s) (operation : Operation) : Seated (s.perform operation) := by
  have hbooks : ∀ pairing windows devices, Seated { s with pairing, windows, devices } :=
    fun _ _ _ => h.of_same rfl rfl rfl rfl rfl
  cases operation with
  | remoteStatus => exact h
  | beginPairing code relayPairing =>
    exact (hbooks _ _ s.devices).closeEach keeps_recordPairingFailure _
  | endPairing => exact (hbooks none s.windows s.devices).closeEach keeps_recordPairingFailure _
  | revokeRemoteDevice deviceID =>
    rw [RemoteService.perform]
    split_ifs
    · have hclosed :=
        (hbooks s.pairing s.windows (s.devices.filter fun d => d.id ≠ deviceID)).closeEach
        keeps_recordPairingFailure fun mode => mode.deviceID == some deviceID
      exact hclosed.of_same rfl rfl rfl rfl rfl
    · exact h
  | setRelayConfiguration isUsable => exact h.of_same rfl rfl rfl rfl rfl

/-- Nor does its answer. -/
theorem Seated.handleManagement (h : Seated s) (operation : Operation) (tag : ℕ) :
    Seated (s.handleManagement operation tag) := by
  rw [RemoteService.handleManagement]
  split_ifs
  · exact (h.perform operation).expirePairingIfNeeded
  · exact h.perform operation

/-- Nor does the answer to a request. -/
theorem Seated.processed (h : Seated s) (id : ℕ) (isError : Bool) :
    Seated (s.processed id isError) := by
  rw [RemoteService.processed]
  cases hget : s.clients.get? id with
  | none => exact h
  | some client =>
    have hflags : Seated
        { s with clients := s.clients.insert id { client with pending := client.pending - 1 } } :=
      h.flags hget rfl rfl rfl
    simp only
    split_ifs
    · exact h
    · exact hflags.closed id
    · exact hflags

/-- The step that passes the limit: a client comes back from pairing to a path that has no slot, and
there is something left to flush — what was pending, or the reply, unless the window closes on the
client before it. -/
def Crowds (s : RemoteService P) : Event → Prop
  | .frame id tag (.pairFinish (some confirmation)) _ =>
    ∃ client deviceID deviceName exchange,
      s.clients.get? id = some client ∧ client.isReady = true ∧ client.isDraining = false ∧
      client.mode = .pairing deviceID deviceName exchange ∧
      s.hasHandshakeSlot client.viaRelay = false ∧
      (0 < client.pending ∨ (tag ≠ 0 ∧ s.spends id exchange confirmation = false))
  | _ => False

/-- A frame that does not crowd keeps the limit. -/
theorem Seated.handle (h : Seated s) {tag : ℕ} {frame : Frame} {random : ℕ}
    (hroom : ¬ s.Crowds (.frame id tag frame random)) : Seated (s.handle id tag frame random) := by
  rw [RemoteService.handle]
  cases hget : s.clients.get? id with
  | none => exact h
  | some client =>
    simp only
    split_ifs with hidle
    · exact h
    · obtain ⟨hready, hdraining⟩ := not_or.mp hidle
      cases hmode : client.mode with
      | handshaking => exact h.handleFirst hget hmode tag frame random
      | session deviceID => exact h.handleSession id tag frame
      | pairing deviceID deviceName exchange =>
        refine h.handlePairing hget hmode (Bool.eq_false_iff.mpr hdraining)
          fun confirmation hframe => ?_
        by_contra hnone
        obtain ⟨hslot, hleft⟩ := not_or.mp hnone
        subst hframe
        refine hroom ⟨client, deviceID, deviceName, exchange, hget, not_not.mp hready,
          Bool.eq_false_iff.mpr hdraining, hmode, Bool.eq_false_iff.mpr hslot, ?_⟩
        by_cases hpending : client.pending = 0
        · obtain ⟨htag, hspends⟩ := not_or.mp fun hor => hleft ⟨hpending, hor⟩
          exact .inr ⟨htag, Bool.eq_false_iff.mpr hspends⟩
        · exact .inl (Nat.pos_of_ne_zero hpending)

/-- **Every event that does not crowd keeps the limit.** -/
theorem Seated.step (s : RemoteService P) (e : Event) (h : Seated s) (hroom : ¬ s.Crowds e) :
    Seated (s.step e) := by
  cases e with
  | clock now => exact h.of_same rfl rfl rfl rfl rfl
  | accept viaRelay isLocal address => exact h.accept viaRelay isLocal address
  | waitTimeout connection => exact h.waitTimeout connection
  | ready id => exact h.withClient id fun _ => ⟨rfl, rfl, rfl⟩
  | frame id tag frame random => exact h.handle hroom
  | processed id isError => exact h.processed id isError
  | flushTimeout id =>
    rw [RemoteService.step]
    split_ifs
    · exact h.closed id
    · exact h
  | closed id => exact h.closed id
  | handshakeTimeout id => exact h.closeIf id _
  | pairingTimeout id => exact h.closeIf id _
  | silence id => exact h.closeIf id _
  | daemonSends id heldSessions =>
    refine h.withClient id fun client => ?_
    split_ifs <;> exact ⟨rfl, rfl, rfl⟩
  | lingerEnds id => exact h.of_same rfl rfl rfl rfl rfl
  | management operation tag => exact h.handleManagement operation tag

/-- A service that starts has no clients. -/
theorem seated_launched (now : ℕ) (hostID : List UInt8) (devices : List Device) (hasRelay : Bool) :
    Seated (P := P) (launched now hostID devices hasRelay) where
  once c := by
    rw [if_neg fun hc => absurd hc.2 (Nat.not_le.mpr hc.1)]
    rfl
  clients _ _ hget := nomatch hget
  daemons _ _ hget := nomatch hget
  slots _ := Nat.zero_le _
  waits _ := Nat.zero_le _
  full _ hw := nomatch hw

/-! ## Past the limit

A pairing that ends puts its client back to its handshake, and asks for no slot. -/

/-- A client that keeps mode and path counts as before. -/
theorem handshaking_withClient (id : ℕ) {f : Client P → Client P}
    (hf : ∀ client, (f client).mode = client.mode ∧ (f client).viaRelay = client.viaRelay)
    (path : Bool) : (s.withClient id f).handshaking path = s.handshaking path := by
  rw [RemoteService.withClient]
  cases hget : s.clients.get? id with
  | none => rfl
  | some client =>
    have hcount := handshaking_insert hget (f client) path
    rw [Client.slots, Client.slots, (hf client).1, (hf client).2] at hcount
    exact Nat.add_right_cancel hcount

/-- A client with something to flush is there still once it is closed. -/
theorem handshaking_close {client : Client P} (hget : s.clients.get? id = some client)
    (hflush : client.isDraining = true ∨ (client.isReady = true ∧ 0 < client.pending))
    (path : Bool) :
    (s.close id).handshaking path = s.handshaking path := by
  rw [RemoteService.close, RemoteService.closeWith, hget]
  simp only
  split_ifs with hdraining hpending
  · rfl
  · exact Nat.add_right_cancel (handshaking_insert hget { client with isDraining := true } path)
  · exact absurd (hflush.resolve_left hdraining) hpending

/-- What is left of a client that had something to flush, after the reply. -/
theorem reply_flushes {client : Client P} {tag : ℕ} (hget : s.clients.get? id = some client)
    (hflush : client.isDraining = true ∨ (client.isReady = true ∧ (0 < client.pending ∨ tag ≠ 0))) :
    (∀ path, (s.reply id tag).handshaking path = s.handshaking path) ∧
      ∃ client', (s.reply id tag).clients.get? id = some client' ∧
        (client'.isDraining = true ∨ (client'.isReady = true ∧ 0 < client'.pending)) := by
  rw [RemoteService.reply]
  split_ifs with htag
  · refine ⟨handshaking_withClient id fun client => ?_, ?_⟩
    · split_ifs <;> exact ⟨rfl, rfl⟩
    · rw [RemoteService.send, RemoteService.withClient, hget]
      refine ⟨_, Dict.get?_insert_self _ _ _, ?_⟩
      split_ifs with hdraining
      · exact .inl hdraining
      · exact .inr ⟨(hflush.resolve_left hdraining).1, Nat.succ_pos _⟩
  · refine ⟨fun _ => rfl, client, hget, ?_⟩
    rcases hflush with hdraining | ⟨hready, hpending | htag'⟩
    · exact .inl hdraining
    · exact .inr ⟨hready, hpending⟩
    · exact absurd htag' htag

/-- **An event that crowds passes the limit.** -/
theorem Crowds.passes (h : Seated s) {e : Event} (hcrowds : s.Crowds e) :
    ∃ path, maximumUnauthenticatedConnections < (s.step e).handshaking path := by
  unfold Crowds at hcrowds
  split at hcrowds
  case h_2 => exact hcrowds.elim
  case h_1 id tag confirmation random =>
  obtain ⟨client, deviceID, deviceName, exchange, hget, hready, hdraining, hmode, hslot, hleft⟩ :=
    hcrowds
  have hp : client.mode.isPairing = true := by rw [hmode]; rfl
  obtain ⟨-, hcount, hclients⟩ := h.finishPairing hget hp exchange deviceID deviceName confirmation
  have hstep : s.step (.frame id tag (.pairFinish (some confirmation)) random) =
      ((((s.finishPairing id client exchange deviceID deviceName confirmation).1.setMode id
        .handshaking).reply id tag).close id) := by
    simp [RemoteService.step, RemoteService.handle, hget, hready, hdraining, hmode,
      RemoteService.handlePairing]
  rw [hstep]
  generalize (s.finishPairing id client exchange deviceID deviceName confirmation).1 = s'
    at hcount hclients
  obtain ⟨client', hget', hmode', hpath', hflush'⟩ : ∃ client', s'.clients.get? id = some client' ∧
      client'.mode = client.mode ∧ client'.viaRelay = client.viaRelay ∧
      (client'.isDraining = true ∨ (client'.isReady = true ∧ (0 < client'.pending ∨ tag ≠ 0))) := by
    by_cases hspends : s.spends id exchange confirmation = true
    · have hpending : 0 < client.pending :=
        hleft.resolve_right fun hnot => absurd hspends (Bool.eq_false_iff.mp hnot.2)
      refine ⟨{ client with isDraining := true }, ?_, rfl, rfl, .inl rfl⟩
      rw [hclients, if_pos hspends, Client.afterClose, hdraining, if_neg Bool.false_ne_true,
        if_pos ⟨hready, hpending⟩]
    · refine ⟨client, hclients.trans (if_neg hspends), rfl, rfl, .inr ⟨hready, ?_⟩⟩
      exact hleft.imp_right And.left
  refine ⟨client.viaRelay, ?_⟩
  rw [setMode_back hget']
  have hback : { s' with clients := s'.clients.insert id client'.back }.clients.get? id =
      some client'.back := Dict.get?_insert_self _ _ _
  obtain ⟨hreply, client'', hget'', hflush''⟩ := reply_flushes hback hflush'
  rw [handshaking_close hget'' hflush'', hreply, handshaking_back hget' (hmode' ▸ hp), hpath',
    if_pos rfl, hcount]
  rw [Bool.eq_false_iff, Ne, hasHandshakeSlot_iff] at hslot
  omega

/-! ## Runs -/

/-- What the slots and the waiting list promise. -/
structure HandshakeSlots (s : RemoteService P) : Prop where
  slots : ∀ path, s.handshaking path ≤ maximumUnauthenticatedConnections
  waits : ∀ path, s.waitingOn path ≤ maximumWaitingConnections
  /-- An accepted connection waits, or was started or cancelled, once. -/
  once : ∀ c, 0 < c → c ≤ s.arrivals →
    ((s.waiting.map Waiting.connection).count c = 1 ∧ s.started.count c + s.cancelled.count c = 0) ∨
    (c ∉ s.waiting.map Waiting.connection ∧ s.started.count c + s.cancelled.count c = 1)
  /-- Its timer, at the latest, ends a wait. -/
  ends : ∀ c, c ∉ (s.step (.waitTimeout c)).waiting.map Waiting.connection
  full : ∀ next ∈ s.waiting, ¬ s.hasHandshakeSlot next.viaRelay

/-- A connection that waited too long waits no more. -/
theorem notMem_waitTimeout (s : RemoteService P) (c : ℕ) :
    c ∉ (s.waitTimeout c).waiting.map Waiting.connection := by
  rw [RemoteService.waitTimeout]
  split_ifs with hmem
  · refine List.count_eq_zero.mp ?_
    rw [count_others, if_pos rfl]
  · exact hmem

/-- What is seated has no more than the limit in their handshakes. -/
theorem Seated.handshakeSlots (h : Seated s) : HandshakeSlots s where
  slots := h.slots
  waits := h.waits
  ends := notMem_waitTimeout s
  full w hw := Bool.eq_false_iff.mp (h.full w hw)
  once c hpos hle := by
    have honce := h.once c
    rw [if_pos ⟨hpos, hle⟩] at honce
    by_cases hmem : c ∈ s.waiting.map Waiting.connection
    · have hcount := List.count_pos_iff.mpr hmem
      exact .inl ⟨by omega, by omega⟩
    · have hcount := List.count_eq_zero_of_not_mem hmem
      exact .inr ⟨hmem, by omega⟩

/-- **The slots hold in every state of a run exactly when no client comes back from pairing to a
path that has no slot for it.** -/
theorem run_handshakeSlots (now : ℕ) (hostID : List UInt8) (devices : List Device) (hasRelay : Bool)
    (es : List Event) :
    (∀ n, HandshakeSlots
      (Run.after (step (P := P)) (launched now hostID devices hasRelay) (es.take n))) ↔
    Run.Along (step (P := P)) (fun s e => ¬ s.Crowds e) (launched now hostID devices hasRelay)
      es := by
  refine Run.always_iff_along (I := Seated) Seated.step (fun s h => h.handshakeSlots) ?_ es
    (seated_launched now hostID devices hasRelay)
  intro s e h hnot hslots
  obtain ⟨path, hpath⟩ := (not_not.mp hnot).passes h
  have hlimit := hslots.slots path
  omega

/-- An exchange that takes any share and no confirmation. -/
def strictExchange : PairingExchange where
  Exchange := Unit
  receiveShare _ _ _ := some ()
  verifyConfirmation _ _ := none
  deviceKey _ _ _ := []

/-- A local client starts a pairing, four more are let in, and it gives a wrong confirmation. -/
def crowdedRun : List Event :=
  [.management (.beginPairing [] false) 1, .accept false true [], .ready 1,
    .frame 1 1 (.pairStart true (some ([], [], []))) 0, .accept false true [],
    .accept false true [], .accept false true [], .accept false true [],
    .frame 1 2 (.pairFinish (some [])) 0]

/-- And such a run there is. -/
theorem run_crowded : ¬ ∀ n, HandshakeSlots (Run.after (step (P := strictExchange))
    (launched 0 [] [] false) (crowdedRun.take n)) := by
  intro h
  have hlimit := (h 9).slots false
  revert hlimit
  decide

end RemoteService
