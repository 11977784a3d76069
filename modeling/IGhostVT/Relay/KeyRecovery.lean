import IGhostVT.Relay.KeyFiles

/-!
# Relay/KeyRecovery — what a start makes of the files it finds

`Paired` files match, or are a configuration whose `relay.json` a start writes again, or are none;
every write keeps them so but one: a rotation's configuration over a `relay.json` that stays the old
key's (`Tears`).  A relay that has no `relay.json` goes on without a key when it wrote its
configuration and could not write the other (`Strands`), until its next start.
-/

open Relay

namespace KeyServer

variable {Priv Pub Text : Type} (pub : Priv → Pub)

/-- The relay that serves with these files checks the key its configuration carries; a relay with no
key has no configuration out. -/
def Usable (s : KeyServer Priv Pub Text) : Prop :=
  match s.dir.relay, s.dir.config with
  | some r, some c => Matches pub c r ∧ s.relayKey = some (r.relayID, r.publicKey)
  | none, none => s.relayKey = none
  | _, _ => False

/-- A start from these files serves, unless it cannot write or has no key to make; and it never
serves with a configuration its members cannot use. -/
def Survives [DecidableEq Pub] [DecidableEq Text] (dir : Dir Priv Pub Text) : Prop :=
  ∀ st : Start Priv Text,
    (st.writes = [] → st.draw.key.isSome = true → (start pub dir st).2 = .ok) ∧
    ((start pub dir st).2 = .ok → Usable pub (start pub dir st).1)

/-- The next write succeeds. -/
def Writes (writes : List Write) : Prop :=
  writes.head? = none ∨ writes.head? = some .written

/-- The next write fails, and the process goes on. -/
def Fails (writes : List Write) : Prop := writes.head? = some .failed

/-- A rotation of a relay that has a `relay.json` writes another key's configuration, and not its
`relay.json`. -/
def Tears (s : KeyServer Priv Pub Text) (e : Event Priv Text) : Prop :=
  ∃ found draw writes relay key, e = .rotate found draw writes ∧ s.isRunning = true ∧
    (s.endpoint <|> found).isSome = true ∧ s.dir.relay = some relay ∧ draw.key = some key ∧
    pub key ≠ relay.publicKey ∧ Writes writes ∧ ¬ Writes writes.tail

/-- A relay that runs without a `relay.json` writes a configuration, and its `relay.json` cannot be
written. -/
def Strands (s : KeyServer Priv Pub Text) (e : Event Priv Text) : Prop :=
  ∃ draw writes, s.isRunning = true ∧ s.dir.relay = none ∧ draw.key.isSome = true ∧ Writes writes ∧
    Fails writes.tail ∧
      ((∃ endpoint, e = .retryEndpoint endpoint draw writes ∧ s.retries = true) ∨
        ∃ found, e = .rotate found draw writes ∧ (s.endpoint <|> found).isSome = true)

/-- The two files match, or the one there is has all it takes to make the other. -/
def Paired (dir : Dir Priv Pub Text) : Prop :=
  match dir.relay, dir.config with
  | some r, some c => Matches pub c r
  | none, some c => isUUID c.relayID = true
  | none, none => True
  | some _, none => False

/-! ## Relay ids -/

theorem hexDigit_isHex {n : ℕ} (h : n < 16) :
    '0' ≤ hexDigit n ∧ hexDigit n ≤ '9' ∨ 'A' ≤ hexDigit n ∧ hexDigit n ≤ 'F' := by
  revert n
  decide

/-- A new relay id can be recovered. -/
theorem isUUID_newRelayID (b : Fin 16 → Fin 256) : isUUID (newRelayID b) = true := by
  have hdigit : ∀ n, '0' ≤ hexDigit (n % 16) ∧ hexDigit (n % 16) ≤ '9' ∨
      'a' ≤ hexDigit (n % 16) ∧ hexDigit (n % 16) ≤ 'f' ∨
      'A' ≤ hexDigit (n % 16) ∧ hexDigit (n % 16) ≤ 'F' := fun n => by
    obtain h | h := hexDigit_isHex (Nat.mod_lt n (by decide : 0 < 16))
    · exact .inl h
    · exact .inr (.inr h)
  simp [isUUID, newRelayID, hexBytes, hdigit]

/-! ## Writes -/

section

variable {pub} {s : KeyServer Priv Pub Text}

theorem write_of_writes (h : Writes s.writes) :
    s.write = ({ s with writes := s.writes.tail }, .ok) := by
  obtain h | h := h
  · rw [write, h]
  · rw [write, h]

theorem write_of_not_writes (h : ¬ Writes s.writes) :
    ∃ o, o ≠ .ok ∧ (o = .stopped ↔ ¬ Fails s.writes) ∧
      s.write = ({ s with writes := s.writes.tail }, o) := by
  rw [write, Fails]
  cases hhead : s.writes.head? with
  | none => exact absurd (.inl hhead) h
  | some w =>
    cases w with
    | written => exact absurd (.inr hhead) h
    | failed => exact ⟨.error, by decide, by decide, rfl⟩
    | stopped => exact ⟨.stopped, by decide, by decide, rfl⟩

theorem saveRelay_of_writes (h : Writes s.writes) (r : RelayFile Pub Text) :
    s.saveRelay r =
      ({ s with writes := s.writes.tail, dir := { s.dir with relay := some r } }, .ok) := by
  rw [saveRelay, write_of_writes h]
  rfl

theorem saveConfig_of_writes (h : Writes s.writes) (c : Config Priv Text) :
    s.saveConfig c =
      ({ s with writes := s.writes.tail, dir := { s.dir with config := some c } }, .ok) := by
  rw [saveConfig, write_of_writes h]
  rfl

theorem andThen_ok (s : KeyServer Priv Pub Text)
    (f : KeyServer Priv Pub Text → KeyServer Priv Pub Text × Outcome) : andThen (s, .ok) f = f s :=
  if_pos rfl

theorem andThen_not_ok {o : Outcome} (h : o ≠ .ok) (s : KeyServer Priv Pub Text)
    (f : KeyServer Priv Pub Text → KeyServer Priv Pub Text × Outcome) : andThen (s, o) f = (s, o) :=
  if_neg h

theorem saveRelay_of_not_writes (h : ¬ Writes s.writes) (r : RelayFile Pub Text) :
    ∃ o, o ≠ .ok ∧ (o = .stopped ↔ ¬ Fails s.writes) ∧
      s.saveRelay r = ({ s with writes := s.writes.tail }, o) := by
  obtain ⟨o, ho, hstopped, hwrite⟩ := write_of_not_writes h
  exact ⟨o, ho, hstopped, by rw [saveRelay, hwrite, andThen_not_ok ho]⟩

theorem saveConfig_of_not_writes (h : ¬ Writes s.writes) (c : Config Priv Text) :
    ∃ o, o ≠ .ok ∧ s.saveConfig c = ({ s with writes := s.writes.tail }, o) := by
  obtain ⟨o, ho, -, hwrite⟩ := write_of_not_writes h
  exact ⟨o, ho, by rw [saveConfig, hwrite, andThen_not_ok ho]⟩

/-! ## A new pair -/

/-- The relay serves with a matching pair. -/
def Serves (pub : Priv → Pub) (s : KeyServer Priv Pub Text) (r : RelayFile Pub Text)
    (c : Config Priv Text) : Prop :=
  s.dir.relay = some r ∧ s.dir.config = some c ∧ Matches pub c r ∧
    s.relayKey = some (r.relayID, r.publicKey)

/-- No file and no key changes. -/
structure Unchanged (s : KeyServer Priv Pub Text) (r : KeyServer Priv Pub Text × Outcome) :
    Prop where
  dir : r.1.dir = s.dir
  relayKey : r.1.relayKey = s.relayKey

/-- A configuration is written, and its `relay.json` is not: the process stopped, or goes on with
the key it has. -/
structure CutShort (s : KeyServer Priv Pub Text) (c : Config Priv Text)
    (r : KeyServer Priv Pub Text × Outcome) : Prop where
  writes : Writes s.writes
  rest : ¬ Writes s.writes.tail
  ne_ok : r.2 ≠ .ok
  stopped : r.2 = .stopped ↔ ¬ Fails s.writes.tail
  dir : r.1.dir = { s.dir with config := some c }
  relayKey : r.1.relayKey = s.relayKey

/-- Writing a configuration and then its `relay.json`: both are there, or neither, or the first one
alone. -/
theorem savePair_cases (s : KeyServer Priv Pub Text) (r : RelayFile Pub Text) (c : Config Priv Text)
    (f : KeyServer Priv Pub Text → KeyServer Priv Pub Text × Outcome) :
    let saved := andThen (s.saveConfig c) fun s => andThen (s.saveRelay r) f
    (Writes s.writes.tail ∧
      saved = f { s with writes := s.writes.tail.tail, dir := ⟨some r, some c⟩ }) ∨
    (¬ Writes s.writes ∧ saved.2 ≠ .ok ∧ Unchanged s saved) ∨ CutShort s c saved := by
  by_cases hconfig : Writes s.writes
  · rw [saveConfig_of_writes hconfig, andThen_ok]
    by_cases hrelay : Writes s.writes.tail
    · refine .inl ⟨hrelay, ?_⟩
      rw [saveRelay_of_writes hrelay, andThen_ok]
    · refine .inr (.inr ?_)
      obtain ⟨o, ho, hstopped, hsave⟩ := saveRelay_of_not_writes (s := { s with
        writes := s.writes.tail, dir := { s.dir with config := some c } }) hrelay r
      rw [hsave, andThen_not_ok ho]
      exact ⟨hconfig, hrelay, ho, hstopped, rfl, rfl⟩
  · refine .inr (.inl ⟨hconfig, ?_⟩)
    obtain ⟨o, ho, hsave⟩ := saveConfig_of_not_writes hconfig c
    rw [hsave, andThen_not_ok ho]
    exact ⟨ho, rfl, rfl⟩

/-- A relay's first pair.  Cut short, it leaves a configuration to recover from. -/
theorem applyEndpointLocked_of_none [DecidableEq Pub] [DecidableEq Text]
    (hrelay : s.dir.relay = none) (endpoint : Text) (draw : Draw Priv) :
    let r := s.applyEndpointLocked pub endpoint draw
    (Writes s.writes.tail ∧ (∃ relay c, Serves pub r.1 relay c) ∧ r.2 = .ok) ∨
    (r.2 ≠ .ok ∧ (s.writes = [] → draw.key = none) ∧ (draw.key = none ∨ ¬ Writes s.writes) ∧
      Unchanged s r) ∨
    (draw.key.isSome = true ∧ ∃ c, isUUID c.relayID = true ∧ CutShort s c r) := by
  simp only [applyEndpointLocked, hrelay, newKey]
  cases hkey : draw.key with
  | none => exact .inr (.inl ⟨by simp, fun _ => rfl, .inl rfl, rfl, rfl⟩)
  | some key =>
    simp only [Option.map_some]
    obtain ⟨hrest, hsaved⟩ | ⟨hwrites, hne, hdir, hmemory⟩ | hcut := savePair_cases
      { s with endpoint := some endpoint }
      { relayID := newRelayID draw.bytes, publicKey := pub key, name := s.name }
      { name := s.name, endpoint, relayID := newRelayID draw.bytes, key } fun s' =>
        (s'.setKey { relayID := newRelayID draw.bytes, publicKey := pub key, name := s.name }, .ok)
    · rw [hsaved]
      exact .inl ⟨hrest, ⟨_, _, rfl, rfl, ⟨rfl, rfl⟩, rfl⟩, rfl⟩
    · refine .inr
        (.inl
          ⟨hne, fun hnil => absurd (.inl (by simp [hnil])) hwrites, .inr hwrites, hdir, hmemory⟩)
    · exact .inr (.inr ⟨rfl, _, isUUID_newRelayID draw.bytes, hcut.writes, hcut.rest, hcut.ne_ok,
        hcut.stopped, hcut.dir, hcut.relayKey⟩)

/-- What is left where there was no `relay.json` is a configuration to recover from. -/
theorem CutShort.paired {c : Config Priv Text} {r : KeyServer Priv Pub Text × Outcome}
    (h : CutShort s c r) (hrelay : s.dir.relay = none) (huuid : isUUID c.relayID = true) :
    Paired pub r.1.dir := by
  rw [h.dir, Paired, hrelay]
  exact huuid

theorem CutShort.writes_ne_nil {c : Config Priv Text} {r : KeyServer Priv Pub Text × Outcome}
    (h : CutShort s c r) : s.writes ≠ [] := fun hnil => h.rest (.inl (by rw [hnil]; rfl))

/-! ## The pair there is -/

/-- The pair matches, whatever is written: the key stays. -/
structure KeepsPair (pub : Priv → Pub) (s : KeyServer Priv Pub Text) (relay : RelayFile Pub Text)
    (r : KeyServer Priv Pub Text × Outcome) : Prop where
  matched : ∃ relay' c, r.1.dir.relay = some relay' ∧ r.1.dir.config = some c ∧
    Matches pub c relay' ∧
    relay'.relayID = relay.relayID ∧ relay'.publicKey = relay.publicKey
  relayKey : r.1.relayKey = s.relayKey
  ok : s.writes = [] → r.2 = .ok

theorem refreshConfig_keepsPair [DecidableEq Pub] [DecidableEq Text] {relay : RelayFile Pub Text}
    {c : Config Priv Text} (hrelay : s.dir.relay = some relay) (hconfig : s.dir.config = some c)
    (hmatches : Matches pub c relay) (endpoint : Text) :
    KeepsPair pub s relay (s.refreshConfig pub relay endpoint) := by
  have hunchanged : KeepsPair pub s relay (s, .ok) :=
    ⟨⟨relay, c, hrelay, hconfig, hmatches, rfl, rfl⟩, rfl, fun _ => rfl⟩
  rw [refreshConfig, hconfig]
  dsimp only
  split_ifs
  · by_cases hwrites : Writes s.writes
    · rw [saveConfig_of_writes hwrites]
      exact ⟨⟨relay, _, hrelay, rfl, hmatches, rfl, rfl⟩, rfl, fun _ => rfl⟩
    · obtain ⟨o, ho, hsave⟩ :=
        saveConfig_of_not_writes hwrites { c with endpoint, name := s.name }
      rw [hsave]
      refine ⟨⟨relay, c, hrelay, hconfig, hmatches, rfl, rfl⟩, rfl, fun hnil => ?_⟩
      exact absurd (.inl (by simp [hnil])) hwrites
  · exact hunchanged

theorem applyEndpointLocked_keepsPair [DecidableEq Pub] [DecidableEq Text]
    {relay : RelayFile Pub Text} {c : Config Priv Text} (hrelay : s.dir.relay = some relay)
    (hconfig : s.dir.config = some c) (hmatches : Matches pub c relay) (endpoint : Text)
    (draw : Draw Priv) :
    KeepsPair pub s relay (s.applyEndpointLocked pub endpoint draw) := by
  simp only [applyEndpointLocked, hrelay]
  split_ifs with hname
  · by_cases hwrites : Writes s.writes
    · rw [saveRelay_of_writes (s := { s with endpoint := some endpoint }) hwrites, andThen_ok]
      obtain ⟨⟨relay', c', hrelay', hconfig', hmatches', hid, hkey⟩, hmemory, hok⟩ :=
        refreshConfig_keepsPair (s := { s with
          endpoint := some endpoint
          writes := s.writes.tail
          dir := { s.dir with relay := some { relay with name := s.name } } })
          rfl hconfig hmatches endpoint
      exact ⟨⟨relay', c', hrelay', hconfig', hmatches', hid, hkey⟩, hmemory,
        fun hnil => hok (by simp [hnil])⟩
    · obtain ⟨o, ho, -, hsave⟩ :=
        saveRelay_of_not_writes (s := { s with endpoint := some endpoint })
        hwrites { relay with name := s.name }
      rw [hsave, andThen_not_ok ho]
      refine ⟨⟨relay, c, hrelay, hconfig, hmatches, rfl, rfl⟩, rfl, fun hnil => ?_⟩
      exact absurd (.inl (by simp [hnil])) hwrites
  · obtain ⟨hmatched, hmemory, hok⟩ := refreshConfig_keepsPair (s := { s with
      endpoint := some endpoint }) hrelay hconfig hmatches endpoint
    exact ⟨hmatched, hmemory, hok⟩

/-! ## A start -/

/-- What a start comes to. -/
structure Recovers (pub : Priv → Pub) (st : Start Priv Text)
    (r : KeyServer Priv Pub Text × Outcome) :
    Prop where
  paired : Paired pub r.1.dir
  usable : r.2 = .ok → Usable pub r.1
  ok : st.writes = [] → st.draw.key.isSome = true → r.2 = .ok

theorem Serves.usable {relay : RelayFile Pub Text} {c : Config Priv Text}
    (h : Serves pub s relay c) :
    Paired pub s.dir ∧ Usable pub s := by
  obtain ⟨hrelay, hconfig, hmatches, hkey⟩ := h
  constructor
  · simp only [Paired, hrelay, hconfig]
    exact hmatches
  · simp only [Usable, hrelay, hconfig]
    exact ⟨hmatches, hkey⟩

variable [DecidableEq Pub] [DecidableEq Text]

/-- The second half of `prepareKey`. -/
def settle (pub : Priv → Pub) (s : KeyServer Priv Pub Text) (found : Option Text)
    (draw : Draw Priv) :
    KeyServer Priv Pub Text × Outcome :=
  match found with
  | none => ({ s with retries := true }, .ok)
  | some endpoint => s.applyEndpointLocked pub endpoint draw

theorem settle_of_serves {relay : RelayFile Pub Text} {c : Config Priv Text}
    (h : Serves pub s relay c) (st : Start Priv Text) (hwrites : st.writes = [] → s.writes = []) :
    Recovers pub st (settle pub s st.found st.draw) := by
  cases hfound : st.found with
  | none => exact ⟨h.usable.1, fun _ => h.usable.2, fun _ _ => rfl⟩
  | some endpoint =>
    obtain ⟨hrelay, hconfig, hmatches, hkey⟩ := h
    obtain ⟨⟨relay', c', hrelay', hconfig', hmatches', hid, hpublic⟩, hmemory, hok⟩ :=
      applyEndpointLocked_keepsPair hrelay hconfig hmatches endpoint st.draw
    have hserves : Serves pub (s.applyEndpointLocked pub endpoint st.draw).1 relay' c' :=
      ⟨hrelay', hconfig', hmatches', by rw [hmemory, hkey, hid, hpublic]⟩
    exact ⟨hserves.usable.1, fun _ => hserves.usable.2, fun hnil _ => hok (hwrites hnil)⟩

theorem settle_of_nothing (hrelay : s.dir.relay = none) (hconfig : s.dir.config = none)
    (hkey : s.relayKey = none) (st : Start Priv Text) (hwrites : st.writes = [] → s.writes = []) :
    Recovers pub st (settle pub s st.found st.draw) := by
  cases hfound : st.found with
  | none =>
    exact {
      paired := by simp [settle, Paired, hrelay, hconfig]
      usable := fun _ => by simp [settle, Usable, hrelay, hconfig, hkey]
      ok := fun _ _ => rfl }
  | some endpoint =>
    obtain ⟨-, ⟨relay, c, hserves⟩, hok⟩ | ⟨hne, hnil, -, hdir, -⟩ | ⟨-, c, huuid, hcut⟩ :=
      applyEndpointLocked_of_none hrelay endpoint st.draw
    · exact ⟨hserves.usable.1, fun _ => hserves.usable.2, fun _ _ => hok⟩
    · refine ⟨?_, fun hok => absurd hok hne, fun hst hdraw => ?_⟩
      · simp only [settle, Paired, hdir, hrelay, hconfig]
      · rw [hnil (hwrites hst)] at hdraw
        cases hdraw
    · exact ⟨hcut.paired hrelay huuid, fun hok => absurd hok hcut.ne_ok,
        fun hst _ => absurd (hwrites hst) hcut.writes_ne_nil⟩

theorem Paired.start {dir : Dir Priv Pub Text} (h : Paired pub dir) (st : Start Priv Text) :
    Recovers pub st (start pub dir st) := by
  unfold Paired at h
  rw [KeyServer.start]
  cases hrelay : dir.relay with
  | some relay =>
    cases hconfig : dir.config with
    | none => simp [hrelay, hconfig] at h
    | some c =>
      simp only [hrelay, hconfig] at h
      have hserves : Serves pub
          { dir, name := st.name, writes := st.writes
            relayKey := some (relay.relayID, relay.publicKey) } relay c :=
        ⟨hrelay, hconfig, h, rfl⟩
      simp only [prepareKey, hrelay, andThen_ok]
      exact settle_of_serves hserves st fun hnil => hnil
  | none =>
    cases hconfig : dir.config with
    | none =>
      simp only [prepareKey, hrelay, hconfig, andThen_ok]
      exact settle_of_nothing (s := { dir, name := st.name, writes := st.writes }) hrelay
        hconfig rfl st
        fun hnil => hnil
    | some c =>
      simp only [hrelay, hconfig] at h
      simp only [prepareKey, hrelay, hconfig, h, if_true]
      by_cases hwrites : Writes st.writes
      · rw [saveRelay_of_writes (s := { dir, name := st.name, writes := st.writes }) hwrites,
          andThen_ok]
        have hserves : Serves pub
            { dir := { dir with
                relay := some { relayID := c.relayID, publicKey := pub c.key, name := c.name } }
              name := st.name, writes := st.writes.tail, relayKey := some (c.relayID, pub c.key) }
            { relayID := c.relayID, publicKey := pub c.key, name := c.name } c :=
          ⟨rfl, hconfig, ⟨rfl, rfl⟩, rfl⟩
        exact settle_of_serves hserves st fun hnil => by simp [hnil]
      · obtain ⟨o, ho, -, hsave⟩ := saveRelay_of_not_writes
          (s := { dir, name := st.name, writes := st.writes }) hwrites
          { relayID := c.relayID, publicKey := pub c.key, name := c.name }
        rw [hsave, andThen_not_ok ho]
        refine ⟨?_, fun hok => absurd hok ho, fun hnil => absurd (.inl (by simp [hnil])) hwrites⟩
        simp only [Paired, hrelay, hconfig]
        exact h

theorem Paired.survives {dir : Dir Priv Pub Text} (h : Paired pub dir) : Survives pub dir :=
  fun st => ⟨(h.start st).ok, (h.start st).usable⟩

/-- A pair that does not match is served as it is. -/
theorem not_survives {dir : Dir Priv Pub Text} {relay : RelayFile Pub Text} {c : Config Priv Text}
    (name : Text) (draw : Draw Priv) (hrelay : dir.relay = some relay)
    (hconfig : dir.config = some c) (hmatches : ¬ Matches pub c relay) : ¬ Survives pub dir := by
  intro hsurvives
  have hstart : start pub dir { name, found := none, draw, writes := [] } =
      ({ dir, name, retries := true, relayKey := some (relay.relayID, relay.publicKey) }, .ok) := by
    simp only [start, prepareKey, hrelay, andThen_ok]
    rfl
  have husable := (hsurvives { name, found := none, draw, writes := [] }).2 (by rw [hstart])
  rw [hstart] at husable
  simp only [Usable, hrelay, hconfig] at husable
  exact hmatches husable.1

theorem Paired.applyEndpointLocked (h : Paired pub s.dir) (endpoint : Text) (draw : Draw Priv) :
    Paired pub (s.applyEndpointLocked pub endpoint draw).1.dir := by
  cases hrelay : s.dir.relay with
  | none =>
    obtain ⟨-, ⟨relay, c, hserves⟩, -⟩ | ⟨-, -, -, hdir, -⟩ | ⟨-, c, huuid, hcut⟩ :=
      applyEndpointLocked_of_none hrelay endpoint draw
    · exact hserves.usable.1
    · rw [hdir]
      exact h
    · exact hcut.paired hrelay huuid
  | some relay =>
    cases hconfig : s.dir.config with
    | none => simp [Paired, hrelay, hconfig] at h
    | some c =>
      simp only [Paired, hrelay, hconfig] at h
      obtain ⟨relay', c', hrelay', hconfig', hmatches', -⟩ :=
        (applyEndpointLocked_keepsPair hrelay hconfig h endpoint draw).matched
      simp only [Paired, hrelay', hconfig']
      exact hmatches'

/-! ## A rotation -/

omit [DecidableEq Pub] [DecidableEq Text] in
theorem rotate_cases (found : Option Text) (draw : Draw Priv) :
    (((s.endpoint <|> found) = none ∨ draw.key = none ∨ ¬ Writes s.writes) ∧
      Unchanged s (s.rotate pub found draw)) ∨
    (Writes s.writes.tail ∧ ∃ relay c, Serves pub (s.rotate pub found draw).1 relay c) ∨
    ∃ key c, (s.endpoint <|> found).isSome = true ∧ draw.key = some key ∧
      CutShort s c (s.rotate pub found draw) ∧ c.key = key ∧ c.relayID = rotatedID s draw := by
  rw [rotate]
  cases hendpoint : s.endpoint <|> found with
  | none => exact .inl ⟨.inl rfl, rfl, rfl⟩
  | some endpoint =>
    simp only [newKey]
    cases hkey : draw.key with
    | none => exact .inl ⟨.inr (.inl rfl), rfl, rfl⟩
    | some key =>
      simp only [Option.map_some]
      obtain ⟨hwrites, hsaved⟩ | ⟨hwrites, -, hunchanged⟩ | hcut := savePair_cases s
        { relayID := s.rotatedID draw, publicKey := pub key, name := s.name }
        { name := s.name, endpoint, relayID := s.rotatedID draw, key } fun s' =>
          ({ s'.setKey { relayID := s.rotatedID draw, publicKey := pub key, name := s.name } with
            endpoint := some endpoint }, .ok)
      · rw [hsaved]
        exact .inr (.inl ⟨hwrites, _, _, rfl, rfl, ⟨rfl, rfl⟩, rfl⟩)
      · exact .inl ⟨.inr (.inr hwrites), hunchanged⟩
      · exact .inr (.inr ⟨key, _, rfl, rfl, hcut, rfl, rfl⟩)

omit [DecidableEq Pub] [DecidableEq Text] in
/-- A rotation that stops between its files is recovered only where there was no `relay.json`. -/
theorem Paired.rotate (h : Paired pub s.dir) {found : Option Text} {draw : Draw Priv}
    (hwhole : ∀ relay key, (s.endpoint <|> found).isSome = true → s.dir.relay = some relay →
      draw.key = some key → Writes s.writes → ¬ Writes s.writes.tail → pub key = relay.publicKey) :
    Paired pub (s.rotate pub found draw).1.dir := by
  obtain ⟨-, hdir, -⟩ | ⟨-, relay, c, hserves⟩ | ⟨key, c, hendpoint, hkey, hcut, hc, hid⟩ :=
    rotate_cases found draw
  · rw [hdir]; exact h
  · exact hserves.usable.1
  · rw [rotatedID] at hid
    cases hrelay : s.dir.relay with
    | none =>
      simp only [hrelay] at hid
      exact hcut.paired hrelay (hid ▸ isUUID_newRelayID draw.bytes)
    | some relay =>
      simp only [hrelay] at hid
      rw [hcut.dir, Paired, hrelay]
      exact ⟨hid, hc ▸ hwhole relay key hendpoint hrelay hkey hcut.writes hcut.rest⟩

/-! ## While it runs -/

omit [DecidableEq Pub] [DecidableEq Text] in
/-- Usability is about the files and the key. -/
theorem Usable.of_same {s' : KeyServer Priv Pub Text} (h : Usable pub s) (hdir : s'.dir = s.dir)
    (hkey : s'.relayKey = s.relayKey) : Usable pub s' := by
  rw [Usable, hdir, hkey]
  exact h

omit [DecidableEq Pub] [DecidableEq Text] in
theorem Usable.serves (h : Usable pub s) {relay : RelayFile Pub Text}
    (hrelay : s.dir.relay = some relay) :
    ∃ c, Serves pub s relay c := by
  rw [Usable, hrelay] at h
  cases hconfig : s.dir.config with
  | none => simp [hconfig] at h
  | some c =>
    simp only [hconfig] at h
    exact ⟨c, hrelay, hconfig, h.1, h.2⟩

/-- An endpoint settled leaves a usable relay, or one whose configuration alone was written. -/
theorem Usable.applyEndpointLocked (h : Usable pub s) (endpoint : Text) (draw : Draw Priv) :
    Usable pub (s.applyEndpointLocked pub endpoint draw).1 ∨
      s.dir.relay = none ∧ draw.key.isSome = true ∧
        ∃ c, CutShort s c (s.applyEndpointLocked pub endpoint draw) := by
  cases hrelay : s.dir.relay with
  | none =>
    obtain ⟨-, ⟨relay, c, hserves⟩, -⟩ | ⟨-, -, -, hdir, hkey⟩ | ⟨hsome, c, -, hcut⟩ :=
      applyEndpointLocked_of_none hrelay endpoint draw
    · exact .inl hserves.usable.2
    · exact .inl (h.of_same hdir hkey)
    · exact .inr ⟨rfl, hsome, c, hcut⟩
  | some relay =>
    obtain ⟨c, -, hconfig, hmatches, hkey⟩ := h.serves hrelay
    obtain ⟨⟨relay', c', hrelay', hconfig', hmatches', hid, hpublic⟩, hmemory, -⟩ :=
      applyEndpointLocked_keepsPair hrelay hconfig hmatches endpoint draw
    have hserves : Serves pub (s.applyEndpointLocked pub endpoint draw).1 relay' c' :=
      ⟨hrelay', hconfig', hmatches', by rw [hmemory, hkey, hid, hpublic]⟩
    exact .inl hserves.usable.2

omit [DecidableEq Pub] [DecidableEq Text] in
/-- A relay that went on behind a configuration alone has no key for it. -/
theorem CutShort.not_usable {c : Config Priv Text} {r : KeyServer Priv Pub Text × Outcome}
    (h : CutShort s c r) (hrelay : s.dir.relay = none) : ¬ Usable pub r.1 := by
  rw [Usable, h.dir, hrelay]
  exact id

omit [DecidableEq Pub] [DecidableEq Text] in
/-- A rotation leaves a usable relay, or one whose configuration alone was written. -/
theorem Usable.rotate (h : Usable pub s) (found : Option Text) (draw : Draw Priv) :
    Usable pub (s.rotate pub found draw).1 ∨
      ∃ key c, (s.endpoint <|> found).isSome = true ∧ draw.key = some key ∧
        CutShort s c (s.rotate pub found draw) ∧ c.key = key ∧
        ∀ relay, s.dir.relay = some relay → pub key ≠ relay.publicKey := by
  obtain ⟨-, hdir, hmemory⟩ | ⟨-, relay, c, hserves⟩ | ⟨key, c, hendpoint, hkey, hcut, hc, hid⟩ :=
    @rotate_cases Priv Pub Text pub s found draw
  · exact .inl (h.of_same hdir hmemory)
  · exact .inl hserves.usable.2
  · by_cases hsame : ∃ relay, s.dir.relay = some relay ∧ pub key = relay.publicKey
    · obtain ⟨relay, hrelay, hpublic⟩ := hsame
      obtain ⟨-, -, -, -, hmemory⟩ := h.serves hrelay
      simp only [rotatedID, hrelay] at hid
      left
      rw [Usable, hcut.dir, hcut.relayKey, hrelay]
      exact ⟨⟨hid, by rw [hc, hpublic]⟩, hmemory⟩
    · exact .inr ⟨key, c, hendpoint, hkey, hcut, hc, fun relay hrelay hpublic =>
        hsame ⟨relay, hrelay, hpublic⟩⟩

/-! ## Every run -/

/-- A start from the files there recovers, and a relay that runs is usable. -/
structure Sound (pub : Priv → Pub) (s : KeyServer Priv Pub Text) : Prop where
  paired : Paired pub s.dir
  usable : s.isRunning = true → Usable pub s

theorem Paired.step (h : Paired pub s.dir) {e : Event Priv Text} (hwhole : ¬ Tears pub s e) :
    Paired pub (step pub s e).dir := by
  cases e with
  | start st =>
    rw [KeyServer.step]
    split_ifs
    · exact h
    · exact (h.start st).paired
  | retryEndpoint endpoint draw writes =>
    rw [KeyServer.step]
    split_ifs
    · exact Paired.applyEndpointLocked (s := { s with writes }) h endpoint draw
    · exact h
  | rotate found draw writes =>
    rw [KeyServer.step]
    split_ifs with hrunning
    · refine Paired.rotate (s := { s with writes }) h ?_
      intro relay key hendpoint hrelay hkey hwrites hnot
      by_contra hne
      exact hwhole
        ⟨found, draw, writes, relay, key, rfl, hrunning, hendpoint, hrelay, hkey, hne, hwrites,
        hnot⟩
    · exact h
  | stop => exact h

omit [DecidableEq Pub] [DecidableEq Text] in
/-- A write that was cut short and did not stop the process failed. -/
theorem CutShort.fails {c : Config Priv Text} {r : KeyServer Priv Pub Text × Outcome}
    (h : CutShort s c r) (hgoes : r.2 ≠ .stopped) : Fails s.writes.tail :=
  not_not.mp fun hnot => hgoes (h.stopped.mpr hnot)

theorem Sound.step (h : Sound pub s) {e : Event Priv Text}
    (hwhole : ¬ (Tears pub s e ∨ Strands s e)) :
    Sound pub (step pub s e) where
  paired := h.paired.step fun htears => hwhole (.inl htears)
  usable := by
    cases e with
    | start st =>
      rw [KeyServer.step]
      split_ifs with hrunning
      · exact h.usable
      · exact fun hok => (h.paired.start st).usable (of_decide_eq_true hok)
    | retryEndpoint endpoint draw writes =>
      rw [KeyServer.step]
      split_ifs with hretries
      · intro hgoes
        have husable : Usable pub { s with writes } := h.usable hretries.1
        obtain husable | ⟨hrelay, hsome, c, hcut⟩ := husable.applyEndpointLocked endpoint draw
        · exact husable
        · exact absurd (.inr ⟨draw, writes, hretries.1, hrelay, hsome, hcut.writes,
            hcut.fails (of_decide_eq_true hgoes), .inl ⟨endpoint, rfl, hretries.2⟩⟩) hwhole
      · exact h.usable
    | rotate found draw writes =>
      rw [KeyServer.step]
      split_ifs with hrunning
      · intro hgoes
        have husable : Usable pub { s with writes } := h.usable hrunning
        obtain husable | ⟨key, c, hendpoint, hkey, hcut, hc, hne⟩ := husable.rotate found draw
        · exact husable
        · refine absurd ?_ hwhole
          cases hrelay : s.dir.relay with
          | none =>
            exact .inr ⟨draw, writes, hrunning, hrelay, by rw [hkey]; rfl, hcut.writes,
              hcut.fails (of_decide_eq_true hgoes), .inr ⟨found, rfl, hendpoint⟩⟩
          | some relay =>
            exact .inl ⟨found, draw, writes, relay, key, rfl, hrunning, hendpoint, hrelay, hkey,
              hne relay hrelay, hcut.writes, hcut.rest⟩
      · exact h.usable
    | stop => exact fun hstopped => absurd hstopped Bool.false_ne_true

/-- After a torn rotation the next start serves the old key beside the new configuration. -/
theorem Tears.not_survives {e : Event Priv Text} (h : Tears pub s e) :
    ¬ Survives pub (step pub s e).dir := by
  obtain ⟨found, draw, writes, relay, key, rfl, hrunning, hendpoint, hrelay, hkey, hne, hwrites,
    hnot⟩ := h
  have hdir : ∃ c, (step pub s (.rotate found draw writes)).dir = { s.dir with config := some c } ∧
      c.key = key := by
    rw [step, if_pos hrunning]
    obtain ⟨hnone | hnone | hfails, -⟩ | ⟨hrest, -⟩ | ⟨key', c, -, hkey', hcut, hc, -⟩ :=
      rotate_cases (s := { s with writes }) found draw
    · rw [hnone] at hendpoint; cases hendpoint
    · rw [hnone] at hkey; cases hkey
    · exact absurd hwrites hfails
    · exact absurd hrest hnot
    · rw [hkey] at hkey'
      cases hkey'
      exact ⟨c, hcut.dir, hc⟩
  obtain ⟨c, hdir, hc⟩ := hdir
  rw [hdir]
  exact KeyServer.not_survives s.name draw hrelay rfl fun hmatches => hne (hc ▸ hmatches.2)

/-- A write that fails does not happen. -/
theorem Fails.not_writes {writes : List Write} (h : Fails writes) : ¬ Writes writes := by
  rintro (hnone | hwritten)
  · exact absurd (h.symm.trans hnone) (by decide)
  · exact absurd (h.symm.trans hwritten) (by decide)

/-- A relay that is stranded goes on, without the key of the configuration it has out. -/
theorem Strands.not_usable {e : Event Priv Text} (h : Strands s e) :
    (step pub s e).isRunning = true ∧ ¬ Usable pub (step pub s e) := by
  obtain ⟨draw, writes, hrunning, hrelay, hkey, hwrites, hfails,
    ⟨endpoint, rfl, hretries⟩ | ⟨found, rfl, hendpoint⟩⟩ :=
    h
  · rw [step, if_pos ⟨hrunning, hretries⟩]
    obtain ⟨hrest, -⟩ | ⟨-, -, hnone | hnot, -⟩ | ⟨-, c, -, hcut⟩ :=
      @applyEndpointLocked_of_none Priv Pub Text pub { s with writes } _ _ hrelay endpoint draw
    · exact absurd hrest hfails.not_writes
    · rw [hnone] at hkey; cases hkey
    · exact absurd hwrites hnot
    · exact ⟨decide_eq_true fun hstopped => hcut.stopped.mp hstopped hfails, hcut.not_usable hrelay⟩
  · rw [step, if_pos hrunning]
    obtain ⟨hnone | hnone | hnot, -⟩ | ⟨hrest, -⟩ | ⟨key', c, -, hkey', hcut, -⟩ :=
      @rotate_cases Priv Pub Text pub { s with writes } found draw
    · rw [hnone] at hendpoint; cases hendpoint
    · rw [hnone] at hkey; cases hkey
    · exact absurd hwrites hnot
    · exact absurd hrest hfails.not_writes
    · exact ⟨decide_eq_true fun hstopped => hcut.stopped.mp hstopped hfails, hcut.not_usable hrelay⟩

variable (pub) in
/-- **The relay's key pair survives a crash, and a relay that runs has the key of the configuration
it has out**, wherever the process stops and whatever writes fail, in exactly the runs in which no
rotation of a relay that has a `relay.json` writes its configuration and not its `relay.json`, and
no relay without one goes on behind a configuration whose `relay.json` it could not write. -/
theorem run_survives (name : Text) (es : List (Event Priv Text)) :
    (∀ n, let s := Run.after (step pub) { name } (es.take n)
      Survives pub s.dir ∧ (s.isRunning = true → Usable pub s)) ↔
      Run.Along (step pub) (fun s e => ¬ (Tears pub s e ∨ Strands s e)) { name } es := by
  refine Run.always_iff_along (I := fun s : KeyServer Priv Pub Text => Sound pub s)
    (S := fun s : KeyServer Priv Pub Text => Survives pub s.dir ∧
      (s.isRunning = true → Usable pub s))
    ?_ ?_ ?_ es ⟨trivial, fun hrunning => absurd hrunning Bool.false_ne_true⟩
  · exact fun s e h hwhole => h.step hwhole
  · exact fun s h => ⟨h.paired.survives, h.usable⟩
  · intro s e _ hharms hboth
    rcases not_not.mp hharms with htears | hstrands
    · exact htears.not_survives hboth.1
    · obtain ⟨hrunning, hnot⟩ := @Strands.not_usable Priv Pub Text pub s _ _ e hstrands
      exact hnot (hboth.2 hrunning)

/-- The disk is full between a rotation's two files: the configuration carries the second key, and
the next start checks the first.  It is full between the first two files of a relay that found its
endpoint late: the configuration is out, and the relay serves without a key. -/
theorem run_tears :
    let draw (key : ℕ) : Draw ℕ := { key := some key, bytes := fun _ => 0 }
    let starts (found : Option ℕ) : Event ℕ ℕ :=
      .start { name := 0, found, draw := draw 1, writes := [] }
    let torn := Run.after (step id) { name := 0 }
      [starts (some 5), .rotate none (draw 2) [.written, .failed], .stop, starts (some 5)]
    let stranded := Run.after (step id) { name := 0 }
      [starts none, .retryEndpoint 5 (draw 1) [.written, .failed]]
    (torn.isRunning = true ∧ torn.relayKey.map Prod.snd = some 1 ∧
      torn.dir.config.map Config.key = some 2 ∧
      ¬ Survives id torn.dir) ∧
    (stranded.isRunning = true ∧ stranded.relayKey = none ∧
      stranded.dir.config.map Config.key = some 1 ∧
      ¬ Usable id stranded) := by
  refine ⟨⟨by decide, by decide, by decide, ?_⟩,
    by decide, by decide, by decide, fun husable => husable⟩
  refine KeyServer.not_survives 0 { key := none, bytes := fun _ => 0 } rfl rfl ?_
  decide

end

end KeyServer
