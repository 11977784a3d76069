import IGhostVT.Relay.Server

/-!
# Relay/HostBindings — a host id belongs to the key that registered it first

The bindings in memory, the bindings on disk and the first keys agree (`Bound`), whatever saves fail
— but for one: a `Forget` whose save fails has already let the id go in memory.
-/

open Relay

namespace RelayServer

variable {ID Key : Type} [LinearOrder ID] [DecidableEq Key] {s s' : RelayServer ID Key}

/-- What is in memory is what is on disk, and every id is bound to the first key that registered
it. -/
structure Bound (s : RelayServer ID Key) : Prop where
  saved : s.savedBindings = s.bindings
  owned : ∀ id, s.owners.get? id = (s.bindings.get? id).map Binding.hostKey

/-- A first key that another one registers against. -/
def Contests (s : RelayServer ID Key) (r : Registration ID Key) : Prop :=
  ∃ hostKey, s.owners.get? r.id = some hostKey ∧ hostKey ≠ r.hostKey

/-- The bindings are to be saved, and cannot be. -/
def SaveFails (s : RelayServer ID Key) : Event ID Key → Prop
  | .register conn _ saves => saves = false ∧ ∃ r, s.registrations.get? conn = some r ∧
      s.refusal r = none ∧ s.bindings.get? r.id = none
  | .forget id saves => saves = false ∧ (s.bindings.get? id).isSome
  | _ => False

/-- The event is answered with an error. -/
def ReportsError (s s' : RelayServer ID Key) : Event ID Key → Prop
  | .register conn _ _ => ∃ reason, s'.answers = s.answers ++ [(conn, .refused reason)]
  | .forget id _ => s'.forgotten = s.forgotten ++ [(id, false)]
  | _ => True

/-- What is promised of an event: a registration against an id's first key is refused, and a save
that fails is reported and leaves the bindings, in memory and on disk, and the hosts as they
were. -/
structure KeepsBindings (s : RelayServer ID Key) (e : Event ID Key) : Prop where
  first : ∀ conn now saves r, e = .register conn now saves → s.registrations.get? conn = some r →
    s.Contests r → ReportsError s (s.step e) e ∧ (s.step e).hosts = s.hosts
  atomic : s.SaveFails e → ReportsError s (s.step e) e ∧ (s.step e).bindings = s.bindings ∧
    (s.step e).savedBindings = s.savedBindings ∧ (s.step e).hosts = s.hosts

/-- A `Forget` of a bound id whose save fails. -/
def ForgetFails (s : RelayServer ID Key) (e : Event ID Key) : Prop :=
  ∃ id, e = .forget id false ∧ (s.bindings.get? id).isSome = true

omit [DecidableEq Key] in
theorem Bound.of_same (h : Bound s) (hbindings : s'.bindings = s.bindings)
    (hsaved : s'.savedBindings = s.savedBindings) (howners : s'.owners = s.owners) : Bound s' where
  saved := by rw [hsaved, hbindings]; exact h.saved
  owned := by rw [howners, hbindings]; exact h.owned

/-! ## Registrations -/

/-- The state a new binding is saved in. -/
def binds (s : RelayServer ID Key) (r : Registration ID Key) (now : ℕ) : RelayServer ID Key :=
  let bindings := s.bindings.insert r.id { hostKey := r.hostKey, boundAt := now }
  { s with bindings, savedBindings := bindings }

omit [DecidableEq Key] in
theorem Bound.enter (h : Bound s) {r : Registration ID Key}
    (hbound : (s.bindings.get? r.id).isSome = true) (conn : ℕ) : Bound (s.enter conn r) := by
  have howned : (s.owners.get? r.id).isNone = false := by
    rw [h.owned, Option.isNone_map]
    simpa using hbound
  refine h.of_same rfl rfl ?_
  change (if (s.owners.get? r.id).isNone then _ else _) = _
  rw [howned]
  rfl

omit [DecidableEq Key] in
/-- A registration of an id that is not bound yet, and whose binding is saved. -/
theorem Bound.enter_binds (h : Bound s) {r : Registration ID Key}
    (hnone : s.bindings.get? r.id = none) (conn now : ℕ) :
    Bound ((s.binds r now).enter conn r) where
  saved := rfl
  owned id := by
    have howner : s.owners.get? r.id = none := by rw [h.owned, hnone]; rfl
    change Dict.get? (if (s.owners.get? r.id).isNone then _ else _) id = _
    rw [howner, Option.isNone_none, if_pos rfl]
    change (s.owners.insert r.id r.hostKey).get? id = ((s.bindings.insert r.id _).get? id).map _
    rw [Dict.get?_insert, Dict.get?_insert]
    split_ifs
    · rfl
    · exact h.owned id

theorem erase_insert_of_none {κ α : Type} [LinearOrder κ] {d : Dict κ α} {k : κ}
    (h : d.get? k = none) (v : α) : (d.insert k v).erase k = d := by
  rw [Dict.erase_insert, Dict.erase_of_none h]

/-- The registration is off its way to the lock. -/
def taken (s : RelayServer ID Key) (conn : ℕ) : RelayServer ID Key :=
  { s with registrations := s.registrations.erase conn }

/-- What taking the lock comes to. -/
theorem register_cases {conn : ℕ} {r : Registration ID Key} (now : ℕ) (saves : Bool)
    (hget : s.registrations.get? conn = some r) :
    (∃ reason, s.refusal r = some reason ∧
      s.register conn now saves = (s.taken conn).answer conn (.refused reason)) ∨
    (s.refusal r = none ∧ (s.bindings.get? r.id).isSome = true ∧
      s.register conn now saves = (s.taken conn).enter conn r) ∨
    (s.refusal r = none ∧ s.bindings.get? r.id = none ∧ saves = true ∧
      s.register conn now saves = ((s.taken conn).binds r now).enter conn r) ∨
    (s.refusal r = none ∧ s.bindings.get? r.id = none ∧ saves = false ∧
      s.register conn now saves = (s.taken conn).answer conn (.refused .invalid)) := by
  have htaken : (s.taken conn).refusal r = s.refusal r := rfl
  rw [taken] at htaken
  cases hrefusal : s.refusal r with
  | some reason =>
    refine .inl ⟨reason, rfl, ?_⟩
    rw [register, hget]
    dsimp only
    rw [htaken, hrefusal]
    rfl
  | none =>
    have hregister : s.register conn now saves =
        if (s.bindings.get? r.id).isSome then (s.taken conn).enter conn r
        else if saves then ((s.taken conn).binds r now).enter conn r
        else { s.taken conn with
          bindings := (s.bindings.insert r.id { hostKey := r.hostKey, boundAt := now }).erase
            r.id }.answer conn (.refused .invalid) := by
      rw [register, hget]
      dsimp only
      rw [htaken, hrefusal]
      rfl
    rw [hregister]
    refine .inr ?_
    cases hbinding : s.bindings.get? r.id with
    | some binding => exact .inl ⟨rfl, rfl, rfl⟩
    | none =>
      cases saves with
      | true => exact .inr (.inl ⟨rfl, rfl, rfl, rfl⟩)
      | false =>
        refine .inr (.inr ⟨rfl, rfl, rfl, ?_⟩)
        simp only [Option.isSome_none, Bool.false_eq_true, if_false]
        rw [erase_insert_of_none hbinding]
        rfl

theorem Bound.register (h : Bound s) (conn now : ℕ) (saves : Bool) :
    Bound (s.register conn now saves) := by
  cases hget : s.registrations.get? conn with
  | none => rw [RelayServer.register, hget]; exact h
  | some r =>
    have htaken : Bound (s.taken conn) := h.of_same rfl rfl rfl
    obtain ⟨reason, -, heq⟩ | ⟨-, hsome, heq⟩ | ⟨-, hnone, -, heq⟩ | ⟨-, -, -, heq⟩ :=
      register_cases now saves hget
    · rw [heq]; exact htaken.of_same rfl rfl rfl
    · rw [heq]; exact htaken.enter hsome conn
    · rw [heq]; exact htaken.enter_binds hnone conn now
    · rw [heq]; exact htaken.of_same rfl rfl rfl

/-- Another key than the first is refused, if for nothing else. -/
theorem Bound.refusal_of_contests (h : Bound s) {r : Registration ID Key}
    (hcontests : s.Contests r) :
    ∃ reason, s.refusal r = some reason := by
  obtain ⟨hostKey, howner, hne⟩ := hcontests
  rw [h.owned, Option.map_eq_some_iff] at howner
  obtain ⟨binding, hbinding, hkey⟩ := howner
  have hany : (s.bindings.get? r.id).any (fun binding => binding.hostKey ≠ r.hostKey) = true := by
    rw [hbinding]
    simpa [hkey] using hne
  unfold refusal
  split_ifs
  · exact ⟨_, rfl⟩
  · exact ⟨_, rfl⟩
  · exact ⟨_, rfl⟩

theorem Bound.first (h : Bound s) {conn : ℕ} {r : Registration ID Key} (now : ℕ) (saves : Bool)
    (hget : s.registrations.get? conn = some r) (hcontests : s.Contests r) :
    ReportsError s (s.register conn now saves) (.register conn now saves) ∧
      (s.register conn now saves).hosts = s.hosts := by
  obtain ⟨reason, hrefusal⟩ := h.refusal_of_contests hcontests
  have heq : s.register conn now saves = (s.taken conn).answer conn (.refused reason) := by
    obtain ⟨reason', hreason', heq⟩ | ⟨hnone, -⟩ | ⟨hnone, -⟩ | ⟨hnone, -⟩ :=
      register_cases now saves hget
    · rw [heq, Option.some_injective _ (hreason'.symm.trans hrefusal)]
    all_goals rw [hrefusal] at hnone; cases hnone
  rw [heq]
  exact ⟨⟨reason, rfl⟩, rfl⟩

/-- A registration whose save fails changes nothing but the answers. -/
theorem register_of_saveFails {conn now : ℕ} {r : Registration ID Key}
    (hget : s.registrations.get? conn = some r) (hrefusal : s.refusal r = none)
    (hnone : s.bindings.get? r.id = none) :
    s.register conn now false = (s.taken conn).answer conn (.refused .invalid) := by
  obtain ⟨reason, hsome, -⟩ | ⟨-, hsome, -⟩ | ⟨-, -, hsaves, -⟩ | ⟨-, -, -, heq⟩ :=
    register_cases now false hget
  · rw [hrefusal] at hsome; cases hsome
  · rw [hnone] at hsome; cases hsome
  · cases hsaves
  · exact heq

/-! ## `Forget` -/

omit [DecidableEq Key] in
/-- A `Forget` that succeeds: the id is no one's, in memory as on disk. -/
theorem Bound.forget (h : Bound s) {id : ID} {saves : Bool}
    (hok : saves = true ∨ (s.bindings.get? id).isSome = false) : Bound (s.forget id saves) := by
  by_cases hbound : (s.bindings.get? id).isSome = true
  · have hsaves : saves = true := hok.resolve_right (by simp [hbound])
    subst hsaves
    have hforget : s.forget id true =
        { s with
          bindings := s.bindings.erase id
          savedBindings := s.bindings.erase id
          owners := s.owners.erase id
          forgotten := s.forgotten ++ [(id, true)] } := by
      simp [RelayServer.forget, hbound]
    rw [hforget]
    refine ⟨rfl, fun id' => ?_⟩
    change (s.owners.erase id).get? id' = ((s.bindings.erase id).get? id').map _
    rw [Dict.get?_erase, Dict.get?_erase]
    split_ifs
    · rfl
    · exact h.owned id'
  · have hnone : s.bindings.get? id = none := by simpa using hbound
    have howner : s.owners.get? id = none := by rw [h.owned, hnone]; rfl
    have hforget : s.forget id saves = { s with forgotten := s.forgotten ++ [(id, true)] } := by
      simp [RelayServer.forget, hnone, Dict.erase_of_none howner]
    rw [hforget]
    exact h.of_same rfl rfl rfl

omit [DecidableEq Key] in
/-- The slip: the binding stays forgotten when the save fails. -/
theorem forget_bindings (s : RelayServer ID Key) (id : ID) (saves : Bool) :
    ((s.forget id saves).bindings).get? id = none := by
  cases hbinding : s.bindings.get? id with
  | some binding => simp [forget, hbinding, Dict.get?_erase]
  | none => simp [forget, hbinding]

/-! ## Every event -/

/-- No other event touches the bindings. -/
theorem Bound.of_other (h : Bound s) {e : Event ID Key}
    (hregister : ∀ conn now saves, e ≠ .register conn now saves)
    (hforget : ∀ id saves, e ≠ .forget id saves) (hrestart : e ≠ .restart) : Bound (s.step e) := by
  have hsame : (s.step e).bindings = s.bindings ∧ (s.step e).savedBindings = s.savedBindings ∧
      (s.step e).owners = s.owners := by
    cases e with
    | register conn now saves => exact absurd rfl (hregister conn now saves)
    | forget id saves => exact absurd rfl (hforget id saves)
    | restart => exact absurd rfl hrestart
    | close => exact ⟨rfl, rfl, rfl⟩
    | _ =>
      simp only [step, verify, dropHost, dropVerify, dropAdmit, dropCheck, dropWelcome,
        dropServe, closeConn, dropEnd, saveKey, advanceKeyWork]
      repeat' split
      all_goals exact ⟨rfl, rfl, rfl⟩
  exact h.of_same hsame.1 hsame.2.1 hsame.2.2

theorem Bound.step (h : Bound s) {e : Event ID Key} (hok : ¬ s.ForgetFails e) :
    Bound (s.step e) := by
  cases e with
  | register conn now saves => exact h.register conn now saves
  | forget id saves =>
    refine h.forget ?_
    cases saves with
    | true => exact .inl rfl
    | false => exact .inr (by simpa using fun hsome => hok ⟨id, rfl, hsome⟩)
  | restart => exact ⟨rfl, fun id => (h.owned id).trans (by rw [← h.saved]; rfl)⟩
  | _ => exact h.of_other (by simp) (by simp) (by simp)

/-- All that is promised holds of an event other than a `Forget` that fails. -/
theorem Bound.keepsBindings (h : Bound s) {e : Event ID Key} (hok : ¬ s.ForgetFails e) :
    s.KeepsBindings e where
  first := by
    rintro conn now saves r rfl hget hcontests
    exact h.first now saves hget hcontests
  atomic hfails := by
    cases e with
    | register conn now saves =>
      obtain ⟨rfl, r, hget, hrefusal, hnone⟩ := hfails
      rw [RelayServer.step, register_of_saveFails hget hrefusal hnone]
      exact ⟨⟨_, rfl⟩, rfl, rfl, rfl⟩
    | forget id saves =>
      obtain ⟨rfl, hsome⟩ := hfails
      exact absurd ⟨id, rfl, hsome⟩ hok
    | _ => exact hfails.elim

theorem ForgetFails.not_keepsBindings {e : Event ID Key} (h : s.ForgetFails e) :
    ¬ s.KeepsBindings e := by
  rintro ⟨-, hatomic⟩
  obtain ⟨id, rfl, hsome⟩ := h
  obtain ⟨-, hbindings, -⟩ := hatomic ⟨rfl, hsome⟩
  have hnone : s.bindings.get? id = none := hbindings ▸ s.forget_bindings id false
  rw [hnone] at hsome
  cases hsome

/-- **A host id stays bound to its first key, and a failed save changes nothing**, in exactly the
runs in which no `Forget` of a bound id has its save fail. -/
theorem run_keepsBindings (limits : Limits) (es : List (Event ID Key)) :
    Run.Along step KeepsBindings { limits } es ↔
      Run.Along step (fun s e => ¬ s.ForgetFails e) { limits } es := by
  refine Run.along_iff_along (I := Bound) ?_ ?_ es ⟨rfl, fun id => rfl⟩
  · exact fun s e h hok => ⟨h.keepsBindings hok, h.step hok⟩
  · exact fun s e _ hfails => (not_not.mp hfails).not_keepsBindings

/-- A host registers and is forgotten while the disk is full: the error is reported, and then
another key has its id. -/
theorem run_forget_fails :
    let registers (conn key : ℕ) : List (Event ℕ ℕ) :=
      [.verify conn (some 7) (some key) true true, .register conn 0 true]
    let events := [.saveKey false, .advanceKeyWork] ++ registers 1 10 ++ [.forget 7 false]
    let s : RelayServer ℕ ℕ := { limits := { hosts := 8, dropConns := 8, dropBytes := 0 } }
    (Run.after step s events).forgotten = [(7, false)] ∧
      (Run.after step s events).owners.get? 7 = some 10 ∧
      ((Run.after step s (events ++ registers 2 11)).hosts.get? 7).map HostConn.hostKey = some 11 ∧
      ¬ Run.Along step KeepsBindings s events := by
  refine ⟨by decide, by decide, by decide, ?_⟩
  rintro ⟨-, -, -, -, hkeeps, -⟩
  exact ForgetFails.not_keepsBindings ⟨7, rfl, by decide⟩ hkeeps

end RelayServer
