import IGhostVT.Lib.Json
import IGhostVT.Relay.KeyFiles
import IGhostVT.Relay.Server
import Mathlib.Data.Char

/-!
# Relay/HostList — the hosts online, as one frame

A member's `list` is answered with one frame that has a row for every registered host.  The relay
bounds the hosts, and each host's name and version, but no frame holds as many as both allow: the
rows of six hosts can be too many, and then nothing is written and the connection closes
(`wideRoster_notListed`).  `run_listed_iff` says which rosters are answered.

`Roster` is the server with what each connection's request said of its host.
-/

/-- Neither side accepts a larger frame body. -/
def maxFrame : ℕ := 64 * 1024

/-- A frame's body behind the four bytes of its length; none when it is too large. -/
def encodeFrame (body : List UInt8) : Option (List UInt8) :=
  if body.length > maxFrame then none
  else some ((List.range 4).map (fun k => UInt8.ofNat (body.length / 256 ^ (3 - k))) ++ body)

namespace Relay

def maxTextField : ℕ := 1024

/-- What a string is read from JSON as is valid UTF-8. -/
def validText (s : List Char) : Bool := byteCount s ≤ maxTextField

/-- What a `host` request says of its host. -/
structure HostRequest where
  hostID : List Char
  name : List Char
  appVersion : List Char
deriving DecidableEq

/-- What `register` checks before any signature. -/
def HostRequest.isValid (r : HostRequest) : Bool :=
  isUUID r.hostID && validText r.name && validText r.appVersion

/-- The key a host goes by. -/
def HostRequest.key (r : HostRequest) : List Char := r.hostID.map Char.toLower

/-- One row of a `list` answer. -/
structure HostInfo where
  id : List Char
  name : List Char
  appVersion : List Char
  since : ℕ
deriving DecidableEq

namespace HostInfo

/-- `json.Marshal` escapes for HTML. -/
def json (h : HostInfo) : List UInt8 :=
  Json.object
    [Json.member "id" (Json.string true h.id), Json.member "name" (Json.string true h.name),
      Json.member "appVersion" (Json.string true h.appVersion),
      Json.member "since" (Json.integer h.since)]

/-- By name, then by id. -/
def le (h h' : HostInfo) : Bool := h.name < h'.name || (h.name = h'.name && h.id ≤ h'.id)

end HostInfo

/-- The body of a `list` answer. -/
def listBody (hosts : List HostInfo) : List UInt8 :=
  Json.object
    [Json.member "ok" (Json.bool true), Json.member "hosts" (Json.array (hosts.map HostInfo.json))]

end Relay

open Relay

structure Roster (Key : Type) where
  server : RelayServer (List Char) Key
  /-- What each connection asked to register, and when it was. -/
  requests : Dict ℕ HostRequest := ∅
  since : Dict ℕ ℕ := ∅

namespace Roster

variable {Key : Type} [DecidableEq Key]

/-- What can happen: a connection's request, which it makes once, or anything else. -/
inductive Event (Key : Type)
  | ask (conn : ℕ) (request : HostRequest) (hostKey : Option Key) (verifies hostVerifies : Bool)
  | register (conn now : ℕ) (saves : Bool)
  | server (event : RelayServer.Event (List Char) Key)

def step (s : Roster Key) : Event Key → Roster Key
  | .ask conn request hostKey verifies hostVerifies =>
    if (s.requests.get? conn).isSome then s
    else
      let id := if request.isValid then some request.key else none
      { s with
        server := s.server.verify conn id hostKey verifies hostVerifies
        requests := s.requests.insert conn request }
  | .register conn now saves =>
    { s with server := s.server.register conn now saves, since := s.since.insert conn now }
  | .server (.verify ..) | .server (.register ..) => s
  | .server event => { s with server := s.server.step event }

/-- `onlineHosts`, before they are sorted. -/
def hosts (s : Roster Key) : List HostInfo :=
  s.server.hosts.entries.filterMap fun (_, h) =>
    (s.requests.get? h.conn).map fun r =>
      { id := r.hostID, name := r.name, appVersion := r.appVersion
        since := (s.since.get? h.conn).getD 0 }

def onlineHosts (s : Roster Key) : List HostInfo := s.hosts.mergeSort HostInfo.le

/-- What `list` writes to a member before it closes the connection: an error in it is dropped. -/
def list (s : Roster Key) : List UInt8 := (encodeFrame (listBody s.onlineHosts)).getD []

/-! ## Who is on the list -/

/-- **Every host on the list was admitted**: its connection's request was valid. -/
structure Admitted (s : Roster Key) : Prop where
  pending : ∀ conn r, s.server.registrations.get? conn = some r →
    ∃ request, s.requests.get? conn = some request ∧ request.isValid = true
  online : ∀ id h, s.server.hosts.get? id = some h →
    ∃ request, s.requests.get? h.conn = some request ∧ request.isValid = true

/-- Hosts and registrations may only go. -/
structure Shrinks (s s' : RelayServer (List Char) Key) : Prop where
  hosts : ∀ id h, s'.hosts.get? id = some h → s.hosts.get? id = some h
  registrations : ∀ conn r, s'.registrations.get? conn = some r → s.registrations.get? conn = some r

section

variable {s s' : RelayServer (List Char) Key}

omit [DecidableEq Key] in
theorem Shrinks.of_same (hhosts : s'.hosts = s.hosts)
    (hregistrations : s'.registrations = s.registrations) : Shrinks s s' :=
  ⟨fun _ _ h => hhosts ▸ h, fun _ _ h => hregistrations ▸ h⟩

omit [DecidableEq Key] in
theorem shrinks_dropHost (s : RelayServer (List Char) Key) (id : List Char) (conn : ℕ) :
    Shrinks s (s.dropHost id conn) := by
  unfold RelayServer.dropHost
  split
  · refine ⟨fun id' h hget => ?_, fun _ _ h => h⟩
    rw [Dict.get?_erase] at hget
    split at hget
    · cases hget
    · exact hget
  · exact .of_same rfl rfl

omit [DecidableEq Key] in
theorem shrinks_advanceKeyWork (s : RelayServer (List Char) Key) : Shrinks s s.advanceKeyWork := by
  unfold RelayServer.advanceKeyWork
  split
  case h_4 id h hosts _ =>
    have hdrop := shrinks_dropHost s id h.conn
    exact ⟨hdrop.hosts, hdrop.registrations⟩
  case h_6 conn conns _ =>
    unfold RelayServer.closeConn
    split <;> exact .of_same rfl rfl
  all_goals exact .of_same rfl rfl

/-- Only a registration lets anyone in. -/
theorem shrinks_step : ∀ (e : RelayServer.Event (List Char) Key),
    (∀ conn id key v hv, e ≠ .verify conn id key v hv) →
      (∀ conn now saves, e ≠ .register conn now saves) →
      Shrinks s (s.step e) := by
  intro e hverify hregister
  cases e with
  | verify conn id key v hv => exact absurd rfl (hverify conn id key v hv)
  | register conn now saves => exact absurd rfl (hregister conn now saves)
  | dropHost id conn => exact shrinks_dropHost s id conn
  | advanceKeyWork => exact shrinks_advanceKeyWork s
  | restart => exact ⟨nofun, nofun⟩
  | close => exact .of_same rfl rfl
  | forget id saves =>
    simp only [RelayServer.step]
    unfold RelayServer.forget
    dsimp only
    split <;> exact .of_same rfl rfl
  | dropVerify | dropAdmit | dropCheck | dropWelcome | dropServe | closeConn | dropEnd | saveKey =>
    simp only [RelayServer.step, RelayServer.dropVerify, RelayServer.dropAdmit,
      RelayServer.dropCheck, RelayServer.dropWelcome, RelayServer.dropServe,
      RelayServer.closeConn, RelayServer.dropEnd, RelayServer.saveKey]
    repeat' split
    all_goals exact .of_same rfl rfl

omit [DecidableEq Key] in
/-- A verified request is a registration of its own connection, or nothing. -/
theorem verify_cases (s : RelayServer (List Char) Key) (conn : ℕ) (id : Option (List Char))
    (hostKey : Option Key) (v hv : Bool) :
    (s.verify conn id hostKey v hv).hosts = s.hosts
      ∧ ((s.verify conn id hostKey v hv).registrations = s.registrations
        ∨ id.isSome ∧ ∃ r, (s.verify conn id hostKey v hv).registrations
            = s.registrations.insert conn r) := by
  unfold RelayServer.verify
  repeat' split
  all_goals first
    | exact ⟨rfl, .inl rfl⟩
    | exact ⟨rfl, .inr ⟨rfl, _, rfl⟩⟩

/-- Under the lock a registration becomes a host of its connection's, or nothing. -/
theorem register_cases (s : RelayServer (List Char) Key) (conn now : ℕ) (saves : Bool) :
    (∀ id r, (s.register conn now saves).registrations.get? id = some r →
        s.registrations.get? id = some r)
      ∧ ((s.register conn now saves).hosts = s.hosts
        ∨ (s.registrations.get? conn).isSome ∧ ∃ id h, h.conn = conn
            ∧ (s.register conn now saves).hosts = s.hosts.insert id h) := by
  have herase : ∀ id r, (s.registrations.erase conn).get? id = some r →
      s.registrations.get? id = some r := by
    intro id r hget
    rw [Dict.get?_erase] at hget
    split at hget
    · cases hget
    · exact hget
  unfold RelayServer.register
  split
  case h_1 => exact ⟨fun _ _ h => h, .inl rfl⟩
  case h_2 r hr =>
    dsimp only
    split
    · exact ⟨herase, .inl rfl⟩
    · split
      · exact ⟨herase, .inr ⟨by rw [hr]; rfl, r.id, _, rfl, rfl⟩⟩
      · split
        · exact ⟨herase, .inr ⟨by rw [hr]; rfl, r.id, _, rfl, rfl⟩⟩
        · exact ⟨herase, .inl rfl⟩

end

variable {s : Roster Key}

omit [DecidableEq Key] in
/-- What only loses hosts and registrations, and no request, keeps the rest admitted. -/
theorem Admitted.shrinks {server : RelayServer (List Char) Key} (h : Admitted s)
    (hshrinks : Shrinks s.server server) : Admitted { s with server } where
  pending conn r hget := h.pending conn r (hshrinks.registrations conn r hget)
  online id g hget := h.online id g (hshrinks.hosts id g hget)

theorem Admitted.ask (h : Admitted s) (conn : ℕ) (request : HostRequest) (hostKey : Option Key)
    (v hv : Bool) : Admitted (s.step (.ask conn request hostKey v hv)) := by
  simp only [step]
  split
  case isTrue => exact h
  case isFalse hnew =>
    have hkept : ∀ conn' request', s.requests.get? conn' = some request' →
        (s.requests.insert conn request).get? conn' = some request' := by
      intro conn' request' hget
      rw [Dict.get?_insert_of_ne]
      · exact hget
      · rintro rfl
        rw [hget] at hnew
        exact hnew rfl
    obtain ⟨hhosts, hregistrations⟩ :=
      verify_cases s.server conn (if request.isValid then some request.key else none) hostKey v hv
    refine ⟨fun conn' r hget => ?_, fun id g hget => ?_⟩
    · dsimp only at hget ⊢
      rcases hregistrations with hsame | ⟨hsome, r', hinsert⟩
      · rw [hsame] at hget
        obtain ⟨q, hq, hvalid⟩ := h.pending conn' r hget
        exact ⟨q, hkept conn' q hq, hvalid⟩
      · rw [hinsert, Dict.get?_insert] at hget
        split at hget
        case isTrue heq =>
          subst heq
          refine ⟨request, Dict.get?_insert_self _ _ _, ?_⟩
          cases hvalid : request.isValid with
          | true => rfl
          | false =>
            rw [hvalid] at hsome
            cases hsome
        case isFalse =>
          obtain ⟨q, hq, hvalid⟩ := h.pending conn' r hget
          exact ⟨q, hkept conn' q hq, hvalid⟩
    · dsimp only at hget ⊢
      rw [hhosts] at hget
      obtain ⟨q, hq, hvalid⟩ := h.online id g hget
      exact ⟨q, hkept g.conn q hq, hvalid⟩

theorem Admitted.register (h : Admitted s) (conn now : ℕ) (saves : Bool) :
    Admitted (s.step (.register conn now saves)) := by
  obtain ⟨hregistrations, hhosts⟩ := register_cases s.server conn now saves
  simp only [step]
  refine ⟨fun conn' r hget => h.pending conn' r (hregistrations conn' r hget), fun id g hget => ?_⟩
  dsimp only at hget ⊢
  rcases hhosts with hsame | ⟨hsome, id', g', hconn, hinsert⟩
  · rw [hsame] at hget
    exact h.online id g hget
  · rw [hinsert, Dict.get?_insert] at hget
    split at hget
    · obtain rfl := Option.some.inj hget
      obtain ⟨r, hr⟩ := Option.isSome_iff_exists.mp hsome
      rw [hconn]
      exact h.pending conn r hr
    · exact h.online id g hget

theorem Admitted.step (h : Admitted s) (e : Event Key) : Admitted (s.step e) := by
  cases e with
  | ask conn request hostKey v hv => exact h.ask conn request hostKey v hv
  | register conn now saves => exact h.register conn now saves
  | server e =>
    cases e with
    | verify | register => exact h
    | _ => exact h.shrinks (shrinks_step _ nofun nofun)

/-! ## What a row costs -/

theorem isPlain_of_hexDigit {c : Char}
    (h : '0' ≤ c ∧ c ≤ '9' ∨ 'a' ≤ c ∧ c ≤ 'f' ∨ 'A' ≤ c ∧ c ≤ 'F') : Json.isPlain c = true := by
  simp only [Char.le_def, UInt32.le_iff_toNat_le] at h
  delta Json.isPlain Char.isAlphanum Char.isAlpha Char.isUpper Char.isLower Char.isDigit
  simp only [Bool.or_eq_true, Bool.and_eq_true, decide_eq_true_eq, ge_iff_le,
    UInt32.le_iff_toNat_le]
  simp only [UInt32.reduceToNat, Char.reduceVal] at h ⊢
  omega

/-- An id has nothing to escape. -/
theorem costs_of_isUUID {s : List Char} (h : isUUID s = true) : Json.costs true s = 36 := by
  obtain ⟨hlength, hall⟩ := of_decide_eq_true h
  rw [Json.costs_of_isPlain true fun c hc => ?_, hlength]
  obtain ⟨i, hi⟩ := List.mem_iff_getElem?.mp hc
  have hpair := List.all_eq_true.mp hall (c, i) (List.mk_mem_zipIdx_iff_getElem?.mpr hi)
  dsimp only at hpair
  split at hpair
  · obtain rfl := of_decide_eq_true hpair
    rfl
  · exact isPlain_of_hexDigit (of_decide_eq_true hpair)

end Roster

namespace Relay.HostInfo

/-- A row and the comma behind it. -/
def cost (h : HostInfo) : ℕ :=
  81 + Json.costs true h.name + Json.costs true h.appVersion + (decimal h.since).length

theorem length_json {h : HostInfo} (hid : isUUID h.id = true) : h.json.length + 1 = h.cost := by
  have hsince : Json.integer h.since = decimal h.since := by
    rw [Json.integer, if_neg (not_lt.mpr (Int.natCast_nonneg _)), Int.natAbs_natCast]
  rw [json, Json.length_object (List.cons_ne_nil _ _), hsince]
  simp only [List.map_cons, List.map_nil, List.sum_cons, List.sum_nil, Json.length_member,
    Json.length_string, Roster.costs_of_isUUID hid, cost]
  have hnames : "id".toList.length = 2 ∧ "name".toList.length = 4
      ∧ "appVersion".toList.length = 10 ∧ "since".toList.length = 5 := by decide
  omega

end Relay.HostInfo

namespace Roster

variable {Key : Type} [DecidableEq Key] {s : Roster Key}

/-- The rows that fit, each with its comma. -/
def listRoom : ℕ := 65515

theorem length_listBody_le_iff {hosts : List HostInfo} (h : ∀ r ∈ hosts, isUUID r.id = true) :
    (listBody hosts).length ≤ maxFrame ↔ (hosts.map HostInfo.cost).sum ≤ listRoom := by
  have hbody : (listBody hosts).length = (Json.joined (hosts.map HostInfo.json)).length + 22 := by
    have hnames : "ok".toList.length = 2 ∧ "hosts".toList.length = 5
        ∧ (Json.bool true).length = 4 := by decide
    rw [listBody, Json.length_object (List.cons_ne_nil _ _)]
    simp only [List.map_cons, List.map_nil, List.sum_cons, List.sum_nil, Json.length_member,
      Json.length_array]
    omega
  rw [hbody, maxFrame, listRoom]
  cases hosts with
  | nil => decide
  | cons r hosts =>
    have hjoined := Json.length_joined (List.cons_ne_nil r.json (hosts.map HostInfo.json))
    have hcosts : ((r :: hosts).map HostInfo.json).map (fun item => item.length + 1)
        = (r :: hosts).map HostInfo.cost := by
      rw [List.map_map]
      exact List.map_congr_left fun r hr => HostInfo.length_json (h r hr)
    rw [List.map_cons] at hcosts
    rw [hcosts] at hjoined
    rw [List.map_cons]
    omega

/-! ## Runs -/

/-- A member is answered: the body fits, and its frame is what is written. -/
def Answered (s : Roster Key) : Prop :=
  (listBody s.onlineHosts).length ≤ maxFrame ∧ encodeFrame (listBody s.onlineHosts) = some s.list

omit [DecidableEq Key] in
theorem answered_iff : s.Answered ↔ (listBody s.onlineHosts).length ≤ maxFrame := by
  refine ⟨fun h => h.1, fun h => ⟨h, ?_⟩⟩
  rw [list, encodeFrame, if_neg (not_lt.mpr h)]
  rfl

omit [DecidableEq Key] in
theorem Admitted.isUUID (h : Admitted s) : ∀ r ∈ s.hosts, Relay.isUUID r.id = true := by
  intro r hr
  obtain ⟨⟨id, g⟩, hmem, hrow⟩ := List.mem_filterMap.mp hr
  obtain ⟨request, hrequest, hvalid⟩ := h.online id g (Dict.mem_entries_iff.mp hmem)
  dsimp only at hrow
  rw [hrequest] at hrow
  obtain rfl := Option.some.inj hrow
  simp only [HostRequest.isValid, Bool.and_eq_true] at hvalid
  exact hvalid.1.1

/-- **A member is answered exactly when the rows fit**, in every state that registrations, hosts
that go, forgets, rotations and restarts reach: each row has 81 bytes, what its name and version
cost in JSON, and the digits of its time. -/
theorem run_listed_iff (limits : Limits) (events : List (Event Key)) :
    (Run.after step { server := { limits } } events).Answered
      ↔ ((Run.after step { server := { limits } } events).hosts.map HostInfo.cost).sum
          ≤ listRoom := by
  have hstart : Admitted ({ server := { limits } } : Roster Key) := ⟨nofun, nofun⟩
  have h := Run.invariant (I := Admitted) (fun _ e h => h.step e) events hstart
  have hsorted : (Run.after step { server := { limits } } events).onlineHosts.Perm
      (Run.after step { server := { limits } } events).hosts := List.mergeSort_perm _ _
  rw [answered_iff, length_listBody_le_iff fun r hr => h.isUUID r (hsorted.mem_iff.mp hr),
    (hsorted.map _).sum_eq]

/-- The limits of a relay as it ships. -/
def defaultLimits : Limits where
  hosts := 64
  dropConns := 32
  dropBytes := 4 * 2 ^ 30

/-- A host whose name and version are as long as they may be, and all control characters. -/
def wideRequest (n : ℕ) : HostRequest where
  hostID := "00000000-0000-0000-0000-00000000000".toList ++ [Nat.digitChar n]
  name := List.replicate maxTextField (Char.ofNat 1)
  appVersion := List.replicate maxTextField (Char.ofNat 1)

/-- Six such hosts register. -/
def wideEvents : List (Event ℕ) :=
  [.server (.saveKey false), .server .advanceKeyWork] ++ (List.range 6).flatMap fun n =>
    [.ask n (wideRequest n) (some n) true true, .register n 0 true]

/-- **A roster the relay does not list**: six hosts of the sixty-four it takes. -/
theorem wideRoster_notListed :
    ¬ (Run.after step { server := { limits := defaultLimits } } wideEvents).Answered := by
  rw [run_listed_iff]
  decide +kernel

end Roster
