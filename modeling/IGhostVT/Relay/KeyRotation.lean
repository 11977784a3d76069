import IGhostVT.Relay.Server

/-!
# Relay/KeyRotation — a rotation revokes everyone at once

Whoever is let in was verified under some key and some generation.  The generation of the moment has
one key (`Stamped`), so it is enough to follow generations: a host or a live drop session of an
earlier one is still on the list of the rotation that is under way (`HostHeld`, `DropHeld`), and
when the rotation returns the list is empty.
-/

open Relay

/-- Checked and on its way to a welcome, or past it. -/
def Relay.DropConn.Live (d : DropConn) : Prop :=
  d.isClosed = false ∧ (d.phase = .checked ∨ d.phase = .welcomed)

namespace RelayServer

variable {ID Key : Type} [LinearOrder ID] {s s' : RelayServer ID Key}

/-- What holds once a rotation has returned: no host was verified under an older key, and a drop
session that was is closed, or not past its check; there it is refused, and it is neither welcomed
nor served. -/
structure Revoked (s : RelayServer ID Key) : Prop where
  hosts : ∀ id h, s.hosts.get? id = some h → s.rotated ≤ h.relayKey
  drops : ∀ conn d, s.drops.get? conn = some d → d.relayKey < s.rotated →
    (d.isClosed = true ∨ d.phase = .verified ∨ d.phase = .admitted) ∧
    (d.phase = .admitted →
      ((s.dropCheck conn).drops.get? conn).map DropConn.phase = some .refused) ∧
    (s.dropWelcome conn).answers = s.answers ∧ (s.dropServe conn).served = s.served

/-! ## The invariant -/

/-- A generation's key: the one of the moment, if the generation is. -/
def Stamped (s : RelayServer ID Key) (key gen : ℕ) : Prop :=
  gen ≤ s.keyGen ∧ (gen = s.keyGen → s.relayKey = some key)

def HostHeld (s : RelayServer ID Key) (id : ID) (h : HostConn Key) : Prop :=
  s.rotated ≤ h.relayKey ∧ Stamped s h.relayKey h.gen ∧
    (h.gen = s.keyGen ∨ ∃ hosts, s.keyWork = some (.dropsHosts hosts) ∧ (id, h) ∈ hosts)

/-- The rotation under way has still to close this connection. -/
def Closing (s : RelayServer ID Key) (conn : ℕ) : Prop :=
  (∃ hosts, s.keyWork = some (.dropsHosts hosts)) ∨
    ∃ conns, s.keyWork = some (.closesConns conns) ∧ conn ∈ conns

structure DropHeld (s : RelayServer ID Key) (conn : ℕ) (d : DropConn) : Prop where
  stamped : Stamped s d.relayKey d.gen
  admitted : d.phase = .admitted ∨ d.phase = .checked ∨ d.phase = .welcomed → conn ∈ s.sessions
  current : d.Live → d.gen = s.keyGen ∨ Closing s conn
  revoked : d.Live → s.rotated ≤ d.relayKey
  gone : d.phase = .refused ∨ d.phase = .ended → d.isClosed = true

/-- The key in memory is the one on disk, but for one that is about to be installed; and keys come
in order. -/
structure KeysInOrder (s : RelayServer ID Key) : Prop where
  rotated_le : s.rotated ≤ s.keys
  relayKey : ∀ key, s.relayKey = some key → s.rotated ≤ key ∧ key ≤ s.keys
  savedKey : ∀ key, s.savedKey = some key → s.rotated ≤ key ∧ key ≤ s.keys
  installed : (∀ key rotates, s.keyWork ≠ some (.installs key rotates)) → s.savedKey = s.relayKey
  installs : ∀ key rotates, s.keyWork = some (.installs key rotates) →
    s.savedKey = some key ∧ (rotates = false → s.relayKey = none)

structure Current (s : RelayServer ID Key) : Prop where
  keys : KeysInOrder s
  registrations : ∀ conn r, s.registrations.get? conn = some r → Stamped s r.relayKey r.gen
  hosts : ∀ id h, s.hosts.get? id = some h → HostHeld s id h
  drops : ∀ conn d, s.drops.get? conn = some d → DropHeld s conn d

/-- A session of an older key is of an older generation. -/
theorem Current.gen_ne (h : Current s) {key gen : ℕ} (hstamped : Stamped s key gen)
    (hold : key < s.rotated) : gen ≠ s.keyGen := by
  intro heq
  have := (h.keys.relayKey key (hstamped.2 heq)).1
  omega

theorem Current.revoked (h : Current s) : Revoked s where
  hosts id host hget := (h.hosts id host hget).1
  drops conn d hget hold := by
    have hd := h.drops conn d hget
    have hgen := h.gen_ne hd.stamped hold
    have hlive : ¬ d.Live := fun hlive => by have := hd.revoked hlive; omega
    refine ⟨?_, fun hphase => ?_, ?_, ?_⟩
    · cases hclosed : d.isClosed with
      | true => exact .inl rfl
      | false =>
        refine .inr ?_
        cases hphase : d.phase with
        | verified => exact .inl rfl
        | admitted => exact .inr rfl
        | checked => exact absurd ⟨hclosed, .inl hphase⟩ hlive
        | welcomed => exact absurd ⟨hclosed, .inr hphase⟩ hlive
        | refused => rw [hd.gone (.inl hphase)] at hclosed; cases hclosed
        | ended => rw [hd.gone (.inr hphase)] at hclosed; cases hclosed
    · rw [dropCheck, hget]
      simp [hphase, hgen, answer]
    · rw [dropWelcome, hget]
      dsimp only
      split_ifs with hphase hclosed
      · rfl
      · rfl
      · exact absurd ⟨by simpa using hclosed, .inl (not_not.mp hphase)⟩ hlive
    · rw [dropServe, hget]
      dsimp only
      rw [if_neg]
      exact fun hserves => hlive ⟨by simpa using hserves.2, .inr hserves.1⟩

/-! ## Steps that leave the keys alone -/

structure SameKeys (s s' : RelayServer ID Key) : Prop where
  relayKey : s'.relayKey = s.relayKey
  keyGen : s'.keyGen = s.keyGen
  keyWork : s'.keyWork = s.keyWork
  savedKey : s'.savedKey = s.savedKey
  keys : s'.keys = s.keys
  rotated : s'.rotated = s.rotated

namespace SameKeys

theorem inOrder (hsame : SameKeys s s') (h : KeysInOrder s) : KeysInOrder s' where
  rotated_le := by rw [hsame.rotated, hsame.keys]; exact h.rotated_le
  relayKey := by rw [hsame.relayKey, hsame.rotated, hsame.keys]; exact h.relayKey
  savedKey := by rw [hsame.savedKey, hsame.rotated, hsame.keys]; exact h.savedKey
  installed := by rw [hsame.keyWork, hsame.savedKey, hsame.relayKey]; exact h.installed
  installs := by rw [hsame.keyWork, hsame.savedKey, hsame.relayKey]; exact h.installs

theorem stamped (hsame : SameKeys s s') {key gen : ℕ} (h : Stamped s key gen) :
    Stamped s' key gen := by
  rw [Stamped, hsame.keyGen, hsame.relayKey]
  exact h

theorem hostHeld (hsame : SameKeys s s') {id : ID} {host : HostConn Key} (h : HostHeld s id host) :
    HostHeld s' id host := by
  refine ⟨?_, hsame.stamped h.2.1, ?_⟩
  · rw [hsame.rotated]; exact h.1
  · rw [hsame.keyGen, hsame.keyWork]; exact h.2.2

theorem dropHeld (hsame : SameKeys s s') {conn : ℕ} {d : DropConn}
    (hsessions : conn ∈ s.sessions → conn ∈ s'.sessions) (h : DropHeld s conn d) :
    DropHeld s' conn d where
  stamped := hsame.stamped h.stamped
  admitted hphase := hsessions (h.admitted hphase)
  current := by rw [hsame.keyGen, Closing, hsame.keyWork]; exact h.current
  revoked := by rw [hsame.rotated]; exact h.revoked
  gone := h.gone

end SameKeys

/-- A step about hosts. -/
theorem Current.of_hosts (h : Current s) (hsame : SameKeys s s') (hdrops : s'.drops = s.drops)
    (hsessions : s'.sessions = s.sessions)
    (hregistrations : ∀ conn r, s'.registrations.get? conn = some r → Stamped s r.relayKey r.gen)
    (hhosts : ∀ id host, s'.hosts.get? id = some host → HostHeld s id host) : Current s' where
  keys := hsame.inOrder h.keys
  registrations conn r hget := hsame.stamped (hregistrations conn r hget)
  hosts id host hget := hsame.hostHeld (hhosts id host hget)
  drops conn d hget := by
    rw [hdrops] at hget
    exact hsame.dropHeld (fun hmem => hsessions ▸ hmem) (h.drops conn d hget)

/-- A step about one drop connection. -/
theorem Current.of_drop (h : Current s) (conn : ℕ) (d : DropConn) (hsame : SameKeys s s')
    (hregistrations : s'.registrations = s.registrations) (hhosts : s'.hosts = s.hosts)
    (hdrops : s'.drops = s.drops.insert conn d)
    (hsessions : ∀ c, c ≠ conn → c ∈ s.sessions → c ∈ s'.sessions) (hheld : DropHeld s' conn d) :
    Current s' where
  keys := hsame.inOrder h.keys
  registrations c r hget := hsame.stamped (h.registrations c r (hregistrations ▸ hget))
  hosts id host hget := hsame.hostHeld (h.hosts id host (hhosts ▸ hget))
  drops c d' hget := by
    rw [hdrops, Dict.get?_insert] at hget
    split_ifs at hget with heq
    · cases hget
      exact heq ▸ hheld
    · exact hsame.dropHeld (hsessions c (Ne.symm heq)) (h.drops c d' hget)

/-- A step that touches neither. -/
theorem Current.of_same (h : Current s) (hsame : SameKeys s s')
    (hregistrations : s'.registrations = s.registrations) (hhosts : s'.hosts = s.hosts)
    (hdrops : s'.drops = s.drops) (hsessions : s'.sessions = s.sessions) : Current s' :=
  h.of_hosts hsame hdrops hsessions
    (fun conn r hget => h.registrations conn r (hregistrations ▸ hget))
    fun id host hget => h.hosts id host (hhosts ▸ hget)

theorem Current.answer (h : Current s) (conn : ℕ) (a : Answer) : Current (s.answer conn a) :=
  h.of_same ⟨rfl, rfl, rfl, rfl, rfl, rfl⟩ rfl rfl rfl rfl

/-! ## Hosts -/

/-- A signature is checked with the key of the moment's generation. -/
theorem stamped_now {key : ℕ} (hkey : s.relayKey = some key) : Stamped s key s.keyGen :=
  ⟨le_rfl, fun _ => hkey⟩

theorem Current.verify (h : Current s) (conn : ℕ) (id : Option ID) (hostKey : Option Key)
    (verifies hostVerifies : Bool) : Current (s.verify conn id hostKey verifies hostVerifies) := by
  unfold RelayServer.verify
  split
  · exact h.answer _ _
  split
  · exact h.answer _ _
  next relayKey hkey =>
    split
    · exact h.answer _ _
    split
    · exact h.answer _ _
    split
    · exact h.answer _ _
    · refine h.of_hosts ⟨rfl, rfl, rfl, rfl, rfl, rfl⟩ rfl rfl (fun c r hget => ?_) h.hosts
      change (s.registrations.insert conn _).get? c = some r at hget
      rw [Dict.get?_insert] at hget
      split_ifs at hget
      · cases hget; exact stamped_now hkey
      · exact h.registrations c r hget

theorem Current.taken (h : Current s) (conn : ℕ) :
    Current { s with registrations := s.registrations.erase conn } := by
  refine h.of_hosts ⟨rfl, rfl, rfl, rfl, rfl, rfl⟩ rfl rfl (fun c r hget => ?_) h.hosts
  change (s.registrations.erase conn).get? c = some r at hget
  rw [Dict.get?_erase] at hget
  split_ifs at hget
  exact h.registrations c r hget

/-- The generation is checked again under the lock: who enters was verified under the key of the
moment. -/
theorem Current.enter (h : Current s) (conn : ℕ) {r : Registration ID Key}
    (hstamped : Stamped s r.relayKey r.gen) (hgen : r.gen = s.keyGen) :
    Current (s.enter conn r) := by
  refine h.of_hosts ⟨rfl, rfl, rfl, rfl, rfl, rfl⟩ rfl rfl h.registrations fun id host hget => ?_
  change (s.hosts.insert r.id _).get? id = some host at hget
  rw [Dict.get?_insert] at hget
  split_ifs at hget
  · cases hget
    exact ⟨(h.keys.relayKey _ (hstamped.2 hgen)).1, hstamped, .inl hgen⟩
  · exact h.hosts id host hget

theorem gen_of_refusal [DecidableEq Key] {r : Registration ID Key} (h : s.refusal r = none) :
    r.gen = s.keyGen := by
  unfold refusal at h
  split_ifs at h with _ hgen
  exact not_not.mp hgen

theorem Current.register [DecidableEq Key] (h : Current s) (conn now : ℕ) (saves : Bool) :
    Current (s.register conn now saves) := by
  cases hget : s.registrations.get? conn with
  | none => rw [RelayServer.register, hget]; exact h
  | some r =>
    have hstamped := h.registrations conn r hget
    have htaken := h.taken conn
    rw [RelayServer.register, hget]
    dsimp only
    split
    · exact htaken.answer _ _
    next hrefusal =>
      have hgen := gen_of_refusal hrefusal
      split_ifs
      · exact htaken.enter conn hstamped hgen
      · refine Current.enter ?_ conn hstamped hgen
        exact htaken.of_same ⟨rfl, rfl, rfl, rfl, rfl, rfl⟩ rfl rfl rfl rfl
      · exact htaken.of_same ⟨rfl, rfl, rfl, rfl, rfl, rfl⟩ rfl rfl rfl rfl

theorem Current.dropHost (h : Current s) (id : ID) (conn : ℕ) : Current (s.dropHost id conn) := by
  unfold RelayServer.dropHost
  split_ifs
  · refine h.of_hosts ⟨rfl, rfl, rfl, rfl, rfl, rfl⟩ rfl rfl h.registrations fun id' host hget => ?_
    change (s.hosts.erase id).get? id' = some host at hget
    rw [Dict.get?_erase] at hget
    split_ifs at hget
    exact h.hosts id' host hget
  · exact h

theorem Current.forget (h : Current s) (id : ID) (saves : Bool) : Current (s.forget id saves) := by
  unfold RelayServer.forget
  dsimp only
  split_ifs
  all_goals exact h.of_same ⟨rfl, rfl, rfl, rfl, rfl, rfl⟩ rfl rfl rfl rfl

/-! ## Drop sessions -/

theorem Current.dropVerify (h : Current s) (conn : ℕ) (verifies : Bool) :
    Current (s.dropVerify conn verifies) := by
  unfold RelayServer.dropVerify
  split
  · exact h.answer _ _
  next relayKey hkey =>
    split_ifs
    · exact h.answer _ _
    · exact h
    · refine h.of_drop conn { relayKey, gen := s.keyGen } ⟨rfl, rfl, rfl, rfl, rfl, rfl⟩ rfl rfl rfl
        (fun c _ hmem => hmem) ?_
      exact {
        stamped := stamped_now hkey
        admitted := by simp
        current := by simp [DropConn.Live]
        revoked := by simp [DropConn.Live]
        gone := by simp }
    · exact h.answer _ _

/-- A session that is not live: closed, or not past its check. -/
theorem DropHeld.of_not_live {conn : ℕ} {d d' : DropConn} (hd : DropHeld s conn d)
    (hsame : SameKeys s s') (hkey : d'.relayKey = d.relayKey) (hgen : d'.gen = d.gen)
    (hlive : ¬ d'.Live)
    (hphase : d'.phase = .admitted ∨ d'.phase = .checked ∨ d'.phase = .welcomed →
    conn ∈ s'.sessions)
    (hgone : d'.phase = .refused ∨ d'.phase = .ended → d'.isClosed = true) :
    DropHeld s' conn d' where
  stamped := by rw [hkey, hgen]; exact hsame.stamped hd.stamped
  admitted := hphase
  current h := absurd h hlive
  revoked h := absurd h hlive
  gone := hgone

theorem Current.dropAdmit (h : Current s) (conn : ℕ) : Current (s.dropAdmit conn) := by
  unfold RelayServer.dropAdmit
  split
  · exact h
  next d hget =>
    have hd := h.drops conn d hget
    split_ifs
    · exact h
    · refine h.of_drop conn { d with phase := .admitted } ⟨rfl, rfl, rfl, rfl, rfl, rfl⟩ rfl rfl rfl
        (fun c _ hmem => List.mem_append_left _ hmem) ?_
      refine hd.of_not_live ⟨rfl, rfl, rfl, rfl, rfl, rfl⟩ rfl rfl (by simp [DropConn.Live]) ?_
        (by simp)
      exact fun _ => List.mem_append_right _ (List.mem_singleton_self conn)
    · refine h.of_drop conn { d with phase := .refused, isClosed := true }
        ⟨rfl, rfl, rfl, rfl, rfl, rfl⟩ rfl rfl rfl (fun c _ hmem => hmem) ?_
      exact hd.of_not_live ⟨rfl, rfl, rfl, rfl, rfl, rfl⟩ rfl rfl (by simp [DropConn.Live])
        (by simp)
        fun _ => rfl

/-- A session whose generation is the one of the moment is past its check. -/
theorem Current.dropCheck (h : Current s) (conn : ℕ) : Current (s.dropCheck conn) := by
  unfold RelayServer.dropCheck
  split
  · exact h
  next d hget =>
    have hd := h.drops conn d hget
    split_ifs with hphase hgen
    · exact h
    · refine h.of_drop conn { d with phase := .refused, isClosed := true }
        ⟨rfl, rfl, rfl, rfl, rfl, rfl⟩ rfl rfl rfl (fun c _ hmem => hmem) ?_
      exact hd.of_not_live ⟨rfl, rfl, rfl, rfl, rfl, rfl⟩ rfl rfl (by simp [DropConn.Live])
        (by simp)
        fun _ => rfl
    · have hgen : d.gen = s.keyGen := not_not.mp hgen
      refine h.of_drop conn { d with phase := .checked } ⟨rfl, rfl, rfl, rfl, rfl, rfl⟩ rfl rfl rfl
        (fun c _ hmem => hmem) ?_
      exact {
        stamped := hd.stamped
        admitted := fun _ => hd.admitted (.inl (not_not.mp hphase))
        current := fun _ => .inl hgen
        revoked := fun _ => (h.keys.relayKey _ (hd.stamped.2 hgen)).1
        gone := by simp }

theorem Current.dropWelcome (h : Current s) (conn : ℕ) : Current (s.dropWelcome conn) := by
  unfold RelayServer.dropWelcome
  split
  · exact h
  next d hget =>
    have hd := h.drops conn d hget
    split_ifs with hphase hclosed
    · exact h
    · refine h.of_drop conn { d with phase := .ended } ⟨rfl, rfl, rfl, rfl, rfl, rfl⟩ rfl rfl rfl
        (fun c _ hmem => hmem) ?_
      exact hd.of_not_live ⟨rfl, rfl, rfl, rfl, rfl, rfl⟩ rfl rfl (by simp [DropConn.Live])
        (by simp)
        fun _ => hclosed
    · have hphase : d.phase = .checked := not_not.mp hphase
      have hlive : d.Live := ⟨by simpa using hclosed, .inl hphase⟩
      refine h.of_drop conn { d with phase := .welcomed } ⟨rfl, rfl, rfl, rfl, rfl, rfl⟩ rfl rfl rfl
        (fun c _ hmem => hmem) ?_
      exact {
        stamped := hd.stamped
        admitted := fun _ => hd.admitted (.inr (.inl hphase))
        current := fun _ => hd.current hlive
        revoked := fun _ => hd.revoked hlive
        gone := by simp }

theorem Current.dropServe (h : Current s) (conn : ℕ) : Current (s.dropServe conn) := by
  unfold RelayServer.dropServe
  split
  · exact h
  split_ifs
  · exact h.of_same ⟨rfl, rfl, rfl, rfl, rfl, rfl⟩ rfl rfl rfl rfl
  · exact h

theorem Current.closeConn (h : Current s) (conn : ℕ) : Current (s.closeConn conn) := by
  unfold RelayServer.closeConn
  split
  · exact h
  next d hget =>
    have hd := h.drops conn d hget
    refine h.of_drop conn { d with isClosed := true } ⟨rfl, rfl, rfl, rfl, rfl, rfl⟩ rfl rfl rfl
      (fun c _ hmem => hmem) ?_
    exact hd.of_not_live ⟨rfl, rfl, rfl, rfl, rfl, rfl⟩ rfl rfl (by simp [DropConn.Live])
      hd.admitted
      fun _ => rfl

theorem Current.dropEnd (h : Current s) (conn : ℕ) : Current (s.dropEnd conn) := by
  unfold RelayServer.dropEnd
  split
  · exact h
  next d hget =>
    have hd := h.drops conn d hget
    refine h.of_drop conn { d with phase := .ended, isClosed := true }
      ⟨rfl, rfl, rfl, rfl, rfl, rfl⟩ rfl rfl rfl (fun c hne hmem => ?_) ?_
    · exact List.mem_filter.mpr ⟨hmem, by simpa using hne⟩
    · exact hd.of_not_live ⟨rfl, rfl, rfl, rfl, rfl, rfl⟩ rfl rfl (by simp [DropConn.Live])
        (by simp)
        fun _ => rfl

/-! ## Keys -/

/-- Between two pieces of work the hosts and drop sessions are of the generation of the moment. -/
theorem Current.of_idle (h : Current s) (hkeys : KeysInOrder s') (hwork : s.keyWork = none)
    (hrelayKey : s'.relayKey = s.relayKey) (hgen : s'.keyGen = s.keyGen)
    (hrotated : s'.rotated = s.rotated) (hregistrations : s'.registrations = s.registrations)
    (hhosts : s'.hosts = s.hosts) (hdrops : s'.drops = s.drops)
    (hsessions : s'.sessions = s.sessions) :
    Current s' where
  keys := hkeys
  registrations conn r hget := by
    rw [Stamped, hgen, hrelayKey]
    exact h.registrations conn r (hregistrations ▸ hget)
  hosts id host hget := by
    obtain ⟨hle, hstamped, hcurrent⟩ := h.hosts id host (hhosts ▸ hget)
    refine ⟨hrotated ▸ hle, by rw [Stamped, hgen, hrelayKey]; exact hstamped, .inl ?_⟩
    rw [hwork] at hcurrent
    rw [hgen]
    exact hcurrent.resolve_right (by simp)
  drops conn d hget := by
    have hd := h.drops conn d (hdrops ▸ hget)
    have hidle : ¬ Closing s conn := by simp [Closing, hwork]
    exact {
      stamped := by rw [Stamped, hgen, hrelayKey]; exact hd.stamped
      admitted := by rw [hsessions]; exact hd.admitted
      current := fun hlive => .inl (hgen ▸ (hd.current hlive).resolve_right hidle)
      revoked := by rw [hrotated]; exact hd.revoked
      gone := hd.gone }

theorem Current.saveKey (h : Current s) (rotates : Bool) : Current (s.saveKey rotates) := by
  unfold RelayServer.saveKey
  split_ifs with hcan
  · obtain ⟨hidle, hfirst⟩ := hcan
    have hwork : s.keyWork = none := by simpa using hidle
    refine h.of_idle ?_ hwork rfl rfl rfl rfl rfl rfl rfl
    have hle := h.keys.rotated_le
    exact {
      rotated_le := Nat.le_succ_of_le hle
      relayKey := fun key hkey =>
        ⟨(h.keys.relayKey key hkey).1, Nat.le_succ_of_le (h.keys.relayKey key hkey).2⟩
      savedKey := by
        rintro key ⟨⟩
        exact ⟨Nat.le_succ_of_le hle, le_rfl⟩
      installed := fun hnot => absurd rfl (hnot _ _)
      installs := by
        rintro key rotates' ⟨⟩
        refine ⟨rfl, fun hrotates => ?_⟩
        have hnone : s.savedKey = none := by simpa [hrotates] using hfirst
        exact (h.keys.installed (by simp [hwork])).symm.trans hnone }
  · exact h

/-- The relay's first key: no one was let in before it. -/
theorem Current.installs_first (h : Current s) {key : ℕ}
    (hwork : s.keyWork = some (.installs key false)) :
    Current { s with relayKey := some key, keyWork := none } := by
  obtain ⟨hsaved, hnone⟩ := h.keys.installs key false hwork
  have hnone := hnone rfl
  have hstamped : ∀ {k gen : ℕ}, Stamped s k gen → gen < s.keyGen := by
    rintro k gen ⟨hle, hkey⟩
    refine lt_of_le_of_ne hle fun heq => ?_
    rw [hnone] at hkey
    cases hkey heq
  have hnext : ∀ {k gen : ℕ}, Stamped s k gen →
      Stamped { s with relayKey := some key, keyWork := none } k gen := fun hst =>
    ⟨hst.1, fun heq => absurd heq (hstamped hst).ne⟩
  exact {
    keys :=
      { rotated_le := h.keys.rotated_le
        relayKey := by rintro k ⟨⟩; exact h.keys.savedKey key hsaved
        savedKey := h.keys.savedKey
        installed := fun _ => hsaved
        installs := by rintro k rotates ⟨⟩ }
    registrations := fun conn r hget => hnext (h.registrations conn r hget)
    hosts := fun id host hget => by
      obtain ⟨-, hst, hcurrent⟩ := h.hosts id host hget
      rw [hwork] at hcurrent
      exact absurd (hcurrent.resolve_right (by simp)) (hstamped hst).ne
    drops := fun conn d hget => by
      have hd := h.drops conn d hget
      exact {
        stamped := hnext hd.stamped
        admitted := hd.admitted
        current := fun hlive => by
          have hcurrent := (hd.current hlive).resolve_right (by simp [Closing, hwork])
          exact absurd hcurrent (hstamped hd.stamped).ne
        revoked := hd.revoked
        gone := hd.gone } }

/-- A rotation's key: everyone is of an earlier generation now, and on the rotation's list. -/
theorem Current.installs_rotation (h : Current s) {key : ℕ}
    (hwork : s.keyWork = some (.installs key true)) :
    Current { s with
      relayKey := some key
      keyGen := s.keyGen + 1
      keyWork := some (.dropsHosts s.hosts.entries) } := by
  have hsaved := (h.keys.installs key true hwork).1
  have hnext : ∀ {k gen : ℕ}, Stamped s k gen → Stamped { s with
      relayKey := some key
      keyGen := s.keyGen + 1
      keyWork := some (.dropsHosts s.hosts.entries) } k gen := by
    rintro k gen ⟨hle, -⟩
    exact ⟨Nat.le_succ_of_le hle, fun heq => absurd heq (by change gen ≠ s.keyGen + 1; omega)⟩
  exact {
    keys :=
      { rotated_le := h.keys.rotated_le
        relayKey := by rintro k ⟨⟩; exact h.keys.savedKey key hsaved
        savedKey := h.keys.savedKey
        installed := fun _ => hsaved
        installs := by rintro k rotates ⟨⟩ }
    registrations := fun conn r hget => hnext (h.registrations conn r hget)
    hosts := fun id host hget => by
      obtain ⟨hle, hst, -⟩ := h.hosts id host hget
      exact ⟨hle, hnext hst, .inr ⟨_, rfl, Dict.mem_entries_iff.mpr hget⟩⟩
    drops := fun conn d hget => by
      have hd := h.drops conn d hget
      exact {
        stamped := hnext hd.stamped
        admitted := hd.admitted
        current := fun _ => .inr (.inl ⟨_, rfl⟩)
        revoked := hd.revoked
        gone := hd.gone } }

/-- The list gets shorter: whoever is off it is gone, or of the generation of the moment. -/
theorem Current.of_work (h : Current s) (work : Option (KeyWork ID Key))
    (hinstalled : ∀ key rotates, s.keyWork ≠ some (.installs key rotates))
    (hinstalls : ∀ key rotates, work ≠ some (.installs key rotates))
    (hhosts : ∀ id host, s.hosts.get? id = some host → host.gen ≠ s.keyGen →
      ∃ hosts, work = some (.dropsHosts hosts) ∧ (id, host) ∈ hosts)
    (hdrops : ∀ conn d, s.drops.get? conn = some d → d.Live → d.gen ≠ s.keyGen →
      Closing { s with keyWork := work } conn) :
    Current { s with keyWork := work } where
  keys :=
    { rotated_le := h.keys.rotated_le
      relayKey := h.keys.relayKey
      savedKey := h.keys.savedKey
      installed := fun _ => h.keys.installed hinstalled
      installs := fun key rotates hwork => absurd hwork (hinstalls key rotates) }
  registrations := h.registrations
  hosts id host hget := by
    obtain ⟨hle, hstamped, -⟩ := h.hosts id host hget
    exact ⟨hle, hstamped, or_iff_not_imp_left.mpr (hhosts id host hget)⟩
  drops conn d hget := by
    have hd := h.drops conn d hget
    exact {
      stamped := hd.stamped
      admitted := hd.admitted
      current := fun hlive => or_iff_not_imp_left.mpr (hdrops conn d hget hlive)
      revoked := hd.revoked
      gone := hd.gone }

/-- The host a rotation has dropped is not registered any more. -/
theorem dropHost_ne {id id' : ID} {host host' : HostConn Key}
    (hget : (s.dropHost id host.conn).hosts.get? id' = some host') : (id', host') ≠ (id, host) := by
  rintro ⟨⟩
  unfold dropHost at hget
  split_ifs at hget with hcurrent
  · change (s.hosts.erase id).get? id = some host at hget
    rw [Dict.get?_erase, if_pos rfl] at hget
    cases hget
  · rw [hget] at hcurrent
    simp at hcurrent

theorem dropHost_keyWork (s : RelayServer ID Key) (id : ID) (conn : ℕ) :
    (s.dropHost id conn).keyWork = s.keyWork := by
  unfold dropHost
  split_ifs
  · rfl
  · rfl

theorem Current.drops_host (h : Current s) {id : ID} {host : HostConn Key}
    {hosts : List (ID × HostConn Key)}
    (hwork : s.keyWork = some (.dropsHosts ((id, host) :: hosts))) :
    Current { s.dropHost id host.conn with keyWork := some (.dropsHosts hosts) } := by
  have hdropped := h.dropHost id host.conn
  have hwork' := (s.dropHost_keyWork id host.conn).trans hwork
  refine hdropped.of_work _ (by simp [hwork']) (by simp) (fun id' host' hget hgen => ?_) ?_
  · obtain ⟨-, -, hcurrent⟩ := hdropped.hosts id' host' hget
    obtain ⟨hosts', heq, hmem⟩ := hcurrent.resolve_left hgen
    rw [hwork'] at heq
    cases heq
    exact ⟨hosts, rfl, (List.mem_cons.mp hmem).resolve_left (dropHost_ne hget)⟩
  · exact fun conn d _ _ _ => .inl ⟨hosts, rfl⟩

theorem Current.lists_conns (h : Current s) (hwork : s.keyWork = some (.dropsHosts [])) :
    Current { s with keyWork := some (.closesConns s.sessions) } := by
  refine h.of_work _ (by simp [hwork]) (by simp) (fun id host hget hgen => ?_)
    fun conn d hget hlive hgen => ?_
  · obtain ⟨hosts, heq, hmem⟩ := (h.hosts id host hget).2.2.resolve_left hgen
    rw [hwork] at heq
    cases heq
    cases hmem
  · exact .inr ⟨_, rfl, (h.drops conn d hget).admitted (.inr hlive.2)⟩

theorem closeConn_keyWork (s : RelayServer ID Key) (conn : ℕ) :
    (s.closeConn conn).keyWork = s.keyWork := by
  unfold closeConn
  split
  · rfl
  · rfl

theorem closeConn_not_live {conn : ℕ} {d : DropConn}
    (hget : (s.closeConn conn).drops.get? conn = some d) : ¬ d.Live := by
  unfold closeConn at hget
  split at hget
  next hnone => rw [hnone] at hget; cases hget
  · change (s.drops.insert conn _).get? conn = some d at hget
    rw [Dict.get?_insert_self] at hget
    cases hget
    simp [DropConn.Live]

theorem Current.closes_conn (h : Current s) {conn : ℕ} {conns : List ℕ}
    (hwork : s.keyWork = some (.closesConns (conn :: conns))) :
    Current { s.closeConn conn with keyWork := some (.closesConns conns) } := by
  have hclosed := h.closeConn conn
  have hwork' := (s.closeConn_keyWork conn).trans hwork
  refine hclosed.of_work _ (by simp [hwork']) (by simp) (fun id host hget hgen => ?_)
    fun c d hget hlive hgen => ?_
  · obtain ⟨hosts, heq, -⟩ := (hclosed.hosts id host hget).2.2.resolve_left hgen
    rw [hwork'] at heq
    cases heq
  · have hne : c ≠ conn := fun heq => closeConn_not_live (heq ▸ hget) hlive
    obtain ⟨hosts, heq⟩ | ⟨conns', heq, hmem⟩ :=
      ((hclosed.drops c d hget).current hlive).resolve_left hgen
    · rw [hwork'] at heq; cases heq
    · rw [hwork'] at heq
      cases heq
      exact .inr ⟨conns, rfl, (List.mem_cons.mp hmem).resolve_left hne⟩

/-- The rotation returns: everyone left is of the generation of the moment, and so of its key. -/
theorem Current.returns (h : Current s) (hwork : s.keyWork = some (.closesConns [])) :
    Current { s with keyWork := none, rotated := s.relayKey.getD 0 } := by
  have hsaved : s.savedKey = s.relayKey := h.keys.installed (by simp [hwork])
  have hrelayKey : ∀ key, s.relayKey = some key → s.relayKey.getD 0 ≤ key ∧ key ≤ s.keys := by
    intro key hkey
    rw [hkey]
    exact ⟨le_rfl, (h.keys.relayKey key hkey).2⟩
  exact {
    keys :=
      { rotated_le := by
          change s.relayKey.getD 0 ≤ s.keys
          cases hkey : s.relayKey with
          | none => exact Nat.zero_le _
          | some key => exact (h.keys.relayKey key hkey).2
        relayKey := hrelayKey
        savedKey := fun key hkey => hrelayKey key (hsaved ▸ hkey)
        installed := fun _ => hsaved
        installs := by rintro key rotates ⟨⟩ }
    registrations := h.registrations
    hosts := fun id host hget => by
      obtain ⟨-, hstamped, hcurrent⟩ := h.hosts id host hget
      rw [hwork] at hcurrent
      have hgen := hcurrent.resolve_right (by simp)
      exact ⟨(hrelayKey _ (hstamped.2 hgen)).1, hstamped, .inl hgen⟩
    drops := fun conn d hget => by
      have hd := h.drops conn d hget
      have hgen : d.Live → d.gen = s.keyGen := fun hlive =>
        (hd.current hlive).resolve_right (by simp [Closing, hwork])
      exact {
        stamped := hd.stamped
        admitted := hd.admitted
        current := fun hlive => .inl (hgen hlive)
        revoked := fun hlive => (hrelayKey _ (hd.stamped.2 (hgen hlive))).1
        gone := hd.gone } }

theorem Current.advanceKeyWork (h : Current s) : Current s.advanceKeyWork := by
  unfold RelayServer.advanceKeyWork
  split
  · exact h
  next key hwork => exact h.installs_first hwork
  next key hwork => exact h.installs_rotation hwork
  next id host hosts hwork => exact h.drops_host hwork
  next hwork => exact h.lists_conns hwork
  next conn conns hwork => exact h.closes_conn hwork
  next hwork => exact h.returns hwork

/-- Nothing but the files outlives the process. -/
theorem Current.restart (h : Current s) : Current s.restart where
  keys :=
    { rotated_le := h.keys.rotated_le
      relayKey := h.keys.savedKey
      savedKey := h.keys.savedKey
      installed := fun _ => rfl
      installs := by rintro key rotates ⟨⟩ }
  registrations := by rintro conn r ⟨⟩
  hosts := by rintro id host ⟨⟩
  drops := by rintro conn d ⟨⟩

/-! ## Every run -/

theorem Current.step [DecidableEq Key] (h : Current s) (e : Event ID Key) : Current (s.step e) := by
  cases e with
  | verify conn id hostKey verifies hostVerifies =>
    exact h.verify conn id hostKey verifies hostVerifies
  | register conn now saves => exact h.register conn now saves
  | dropHost id conn => exact h.dropHost id conn
  | forget id saves => exact h.forget id saves
  | dropVerify conn verifies => exact h.dropVerify conn verifies
  | dropAdmit conn => exact h.dropAdmit conn
  | dropCheck conn => exact h.dropCheck conn
  | dropWelcome conn => exact h.dropWelcome conn
  | dropServe conn => exact h.dropServe conn
  | closeConn conn => exact h.closeConn conn
  | dropEnd conn => exact h.dropEnd conn
  | saveKey rotates => exact h.saveKey rotates
  | advanceKeyWork => exact h.advanceKeyWork
  | close => exact h.of_same ⟨rfl, rfl, rfl, rfl, rfl, rfl⟩ rfl rfl rfl rfl
  | restart => exact h.restart

theorem Current.init (limits : Limits) : Current ({ limits } : RelayServer ID Key) where
  keys :=
    { rotated_le := le_rfl
      relayKey := by rintro key ⟨⟩
      savedKey := by rintro key ⟨⟩
      installed := fun _ => rfl
      installs := by rintro key rotates ⟨⟩ }
  registrations := by rintro conn r ⟨⟩
  hosts := by rintro id host ⟨⟩
  drops := by rintro conn d ⟨⟩

/-- **A rotation revokes everyone at once**: in every state any interleaving reaches, no host that
is registered was verified under a key older than the last returned rotation's, and no drop session
that was is welcomed or served. -/
theorem run_revoked [DecidableEq Key] (limits : Limits) (es : List (Event ID Key)) :
    Revoked (Run.after step { limits } es) :=
  Current.revoked (Run.invariant (I := Current) (fun _ e h => h.step e) es (Current.init limits))

-- A host and a drop session verified under the first key: the rotation's second key drops the one,
-- and
-- the other comes to its check too late.
example :
    let events : List (Event ℕ ℕ) :=
      [.saveKey false, .advanceKeyWork, .verify 1 (some 7) (some 10) true true, .register 1 0 true,
        .dropVerify 2 true, .saveKey true, .advanceKeyWork, .advanceKeyWork, .advanceKeyWork,
        .advanceKeyWork, .dropAdmit 2, .dropCheck 2]
    let s := Run.after step { limits := { hosts := 8, dropConns := 8, dropBytes := 1 } } events
    s.rotated = 2 ∧ s.hosts.entries = [] ∧ s.answers = [(1, .ok), (2, .refused .auth)] := by
  decide

end RelayServer
