import IGhostVT.Session.SessionRegistry

/-!
# Session/ExclusiveHolder — a session has one holder, whatever the peers do

`Exclusive` ties the three records together: what a peer believes to hold, the registry's
attachments say it holds; attachments name live sessions; holders name attached ones.  Every
request, exit and lost connection keeps it (`Exclusive.step`), so at most one peer gets past the
gate of `write` and `resize`.
-/

namespace SessionRegistry

/-- The three records agree. -/
structure Exclusive (s : SessionRegistry) : Prop where
  attached : ∀ p, ∀ id ∈ (s.peers p).attachedSessionIDs, s.attachments.get? id = some p
  live : ∀ id p, s.attachments.get? id = some p → (s.sessions.get? id).isSome
  held : ∀ id device, s.holders.get? id = some device → (s.attachments.get? id).isSome
  /-- A peer that is gone believes nothing. -/
  gone : ∀ p, (s.peers p).isValid = false → (s.peers p).attachedSessionIDs = ∅

/-! ## Notices leave the records alone -/

/-- The same records. -/
structure SameBooks (s s' : SessionRegistry) : Prop where
  sessions : s'.sessions = s.sessions
  attachments : s'.attachments = s.attachments
  holders : s'.holders = s.holders
  peers : s'.peers = s.peers

theorem SameBooks.refl (s : SessionRegistry) : SameBooks s s := ⟨rfl, rfl, rfl, rfl⟩

theorem SameBooks.trans {s₁ s₂ s₃ : SessionRegistry} (h : SameBooks s₁ s₂) (h' : SameBooks s₂ s₃) :
    SameBooks s₁ s₃ :=
  ⟨h'.1.trans h.1, h'.2.trans h.2, h'.3.trans h.3, h'.4.trans h.4⟩

theorem Exclusive.of_same {s s' : SessionRegistry} (h : s.Exclusive) (hs : SameBooks s s') :
    s'.Exclusive := by
  refine ⟨?_, ?_, ?_, ?_⟩
  · rw [hs.peers, hs.attachments]
    exact h.attached
  · rw [hs.attachments, hs.sessions]
    exact h.live
  · rw [hs.holders, hs.attachments]
    exact h.held
  · rw [hs.peers]
    exact h.gone

theorem sameBooks_deliver (s : SessionRegistry) (peer : ℕ) (notice : Notice) :
    SameBooks s (s.deliver peer notice) := by
  rw [deliver]
  split_ifs
  · exact ⟨rfl, rfl, rfl, rfl⟩
  · exact SameBooks.refl s

theorem sameBooks_notifyWatchers (s : SessionRegistry) (notice : Notice) :
    SameBooks s (s.notifyWatchers notice) := by
  have hfold : ∀ (ws : List ℕ) (s : SessionRegistry),
      SameBooks s (ws.foldl (fun s w => s.deliver w notice) s) := by
    intro ws
    induction ws with
    | nil => exact SameBooks.refl
    | cons w ws ih => exact fun s => (sameBooks_deliver s w notice).trans (ih _)
  exact hfold s.watchers s

/-! ## The records after each operation -/

variable {s : SessionRegistry}

/-- A peer that lets go of an id keeps the records in agreement. -/
theorem Exclusive.forget (h : s.Exclusive) (peer id : ℕ) : (s.forget peer id).Exclusive := by
  refine ⟨fun p j hj => ?_, h.live, h.held, fun p hp => ?_⟩
  · by_cases hpeer : p = peer
    · subst hpeer
      simp only [SessionRegistry.forget, modifyPeer, Function.update_self] at hj
      exact h.attached p j (Finset.mem_of_mem_erase hj)
    · simp only [SessionRegistry.forget, modifyPeer, Function.update_of_ne hpeer] at hj
      exact h.attached p j hj
  · by_cases hpeer : p = peer
    · subst hpeer
      simp only [SessionRegistry.forget, modifyPeer, Function.update_self] at hp ⊢
      rw [h.gone p hp, Finset.erase_empty]
    · simp only [SessionRegistry.forget, modifyPeer, Function.update_of_ne hpeer] at hp ⊢
      exact h.gone p hp

/-- Attachments that go, and holders that go with them. -/
theorem Exclusive.shrink (h : s.Exclusive) {s' : SessionRegistry} (id : ℕ)
    (hpeers : ∀ p, (s'.peers p).attachedSessionIDs ⊆ (s.peers p).attachedSessionIDs ∧
      (s'.peers p).isValid = (s.peers p).isValid)
    (hid : ∀ p, id ∉ (s'.peers p).attachedSessionIDs)
    (hatt : ∀ j, s'.attachments.get? j = if id = j then none else s.attachments.get? j)
    (hhold : ∀ j, s'.holders.get? j = if id = j then none else s.holders.get? j)
    (hsess : ∀ j, id ≠ j → s'.sessions.get? j = s.sessions.get? j) : s'.Exclusive := by
  refine ⟨fun p j hj => ?_, fun j p hj => ?_, fun j device hj => ?_, fun p hp => ?_⟩
  · have hne : id ≠ j := fun heq => hid p (heq ▸ hj)
    rw [hatt, if_neg hne]
    exact h.attached p j ((hpeers p).1 hj)
  · rw [hatt] at hj
    split_ifs at hj with hne
    rw [hsess j hne]
    exact h.live j p hj
  · rw [hhold] at hj
    split_ifs at hj with hne
    rw [hatt, if_neg hne]
    exact h.held j device hj
  · rw [(hpeers p).2] at hp
    exact Finset.subset_empty.mp (h.gone p hp ▸ (hpeers p).1)

/-- What an attachment that ends takes with it. -/
theorem vacate_books (s : SessionRegistry) (id : ℕ) :
    (s.vacate id).sessions = s.sessions ∧ (s.vacate id).peers = s.peers ∧
      (∀ j, (s.vacate id).attachments.get? j = if id = j then none else s.attachments.get? j) ∧
        ∀ j, (s.vacate id).holders.get? j = if id = j then none else s.holders.get? j := by
  have hatt : ∀ j, (s.attachments.erase id).get? j =
      if id = j then none else s.attachments.get? j :=
    Dict.get?_erase s.attachments id
  rw [vacate, release]
  split
  · rename_i hnone
    refine ⟨rfl, rfl, hatt, fun j => ?_⟩
    split_ifs with heq
    · exact heq ▸ hnone
    · rfl
  · have hs := sameBooks_notifyWatchers
      { s with attachments := s.attachments.erase id, holders := s.holders.erase id }
    refine ⟨(hs _).sessions, (hs _).peers, fun j => ?_, fun j => ?_⟩
    · rw [(hs _).attachments]
      exact hatt j
    · rw [(hs _).holders, Dict.get?_erase]

/-- A peer that lets go of a session, in both books at once. -/
theorem Exclusive.detachSession (h : s.Exclusive) (peer id : ℕ) :
    (s.detachSession peer id).1.Exclusive := by
  rw [SessionRegistry.detachSession, detach]
  split_ifs with hatt
  swap
  · exact h.forget peer id
  obtain ⟨hsess, hpeers, hattach, hhold⟩ := vacate_books s id
  have hother : ∀ p, p ≠ peer → id ∉ (s.peers p).attachedSessionIDs := fun p hp hmem =>
    hp (Option.some.inj ((h.attached p id hmem).symm.trans hatt))
  refine h.shrink id (fun p => ?_) (fun p => ?_) hattach hhold fun j _ => ?_
  · by_cases hp : p = peer
    · subst hp
      simp only [SessionRegistry.forget, modifyPeer, Function.update_self, hpeers]
      exact ⟨Finset.erase_subset _ _, trivial⟩
    · simp only [SessionRegistry.forget, modifyPeer, Function.update_of_ne hp, hpeers]
      exact ⟨Finset.Subset.refl _, trivial⟩
  · by_cases hp : p = peer
    · subst hp
      simp only [SessionRegistry.forget, modifyPeer, Function.update_self]
      exact Finset.notMem_erase _ _
    · simp only [SessionRegistry.forget, modifyPeer, Function.update_of_ne hp, hpeers]
      exact hother p hp
  · show (s.vacate id).sessions.get? j = _
    rw [hsess]

/-- Every attachment of a peer goes, and what it was held for. -/
theorem detachAll_books (s : SessionRegistry) (peer : ℕ) :
    (s.detachAll peer).sessions = s.sessions ∧ (s.detachAll peer).peers = s.peers ∧
      (∀ j, (s.detachAll peer).attachments.get? j =
        if s.attachments.get? j = some peer then none else s.attachments.get? j) ∧
      ∀ j, (s.detachAll peer).holders.get? j =
        if s.attachments.get? j = some peer then none else s.holders.get? j := by
  have hcons : ∀ {α : Type} (e : ℕ × ℕ) (es : List (ℕ × ℕ)) (j : ℕ) (x : Option α),
      (if j ∈ es.map Prod.fst then none else if e.1 = j then none else x)
        = if j ∈ (e :: es).map Prod.fst then none else x := by
    intro α e es j x
    rw [List.map_cons]
    by_cases hj : e.1 = j
    · simp [hj]
    · by_cases hmem : j ∈ es.map Prod.fst
      · rw [if_pos hmem, if_pos (List.mem_cons_of_mem _ hmem)]
      · rw [if_neg hmem, if_neg hj, if_neg fun hc => (List.mem_cons.mp hc).elim (hj ∘ Eq.symm) hmem]
  have hfold : ∀ (es : List (ℕ × ℕ)) (s : SessionRegistry),
      let s' := es.foldl (fun s e => s.vacate e.1) s
      s'.sessions = s.sessions ∧ s'.peers = s.peers ∧
        (∀ j, s'.attachments.get? j = if j ∈ es.map Prod.fst then none else s.attachments.get? j) ∧
        ∀ j, s'.holders.get? j = if j ∈ es.map Prod.fst then none else s.holders.get? j := by
    intro es
    induction es with
    | nil => exact fun s => ⟨rfl, rfl, fun j => rfl, fun j => rfl⟩
    | cons e es ih =>
      intro s
      obtain ⟨hs, hp, ha, hh⟩ := vacate_books s e.1
      obtain ⟨ihs, ihp, iha, ihh⟩ := ih (s.vacate e.1)
      refine ⟨ihs.trans hs, ihp.trans hp, fun j => ?_, fun j => ?_⟩
      · rw [List.foldl_cons, iha j, ha, hcons]
      · rw [List.foldl_cons, ihh j, hh j, hcons]
  have hmem : ∀ j, j ∈ (s.attachments.entries.filter fun e => e.2 = peer).map Prod.fst ↔
      s.attachments.get? j = some peer := by
    intro j
    rw [← Dict.mem_entries_iff, List.mem_map]
    constructor
    · rintro ⟨e, he, rfl⟩
      obtain ⟨hentry, hpeer⟩ := List.mem_filter.mp he
      exact of_decide_eq_true hpeer ▸ hentry
    · exact fun hentry => ⟨(j, peer), List.mem_filter.mpr ⟨hentry, decide_eq_true rfl⟩, rfl⟩
  obtain ⟨hs, hp, ha, hh⟩ := hfold (s.attachments.entries.filter fun e => e.2 = peer) s
  refine ⟨hs, hp, fun j => (ha j).trans ?_, fun j => (hh j).trans ?_⟩
  · exact if_congr (hmem j) rfl rfl
  · exact if_congr (hmem j) rfl rfl

/-- **A peer that dies lets go of all it held.** -/
theorem Exclusive.invalidate (h : s.Exclusive) (peer : ℕ) : (s.invalidate peer).Exclusive := by
  rw [SessionRegistry.invalidate]
  split_ifs with hvalid
  swap
  · exact h
  dsimp only
  generalize hs₁ : ({ s.modifyPeer peer fun p => { p with isValid := false } with
    watchers := _ } : SessionRegistry) = s₁
  have hatt₁ : s₁.attachments = s.attachments := by rw [← hs₁]; rfl
  have hhold₁ : s₁.holders = s.holders := by rw [← hs₁]; rfl
  have hsess₁ : s₁.sessions = s.sessions := by rw [← hs₁]; rfl
  have hpeers₁ :
      s₁.peers = Function.update s.peers peer { s.peers peer with isValid := false } := by
    rw [← hs₁]; rfl
  obtain ⟨hsess, hpeers, hatt, hhold⟩ := detachAll_books s₁ peer
  rw [hatt₁, hhold₁, hsess₁, hpeers₁] at *
  have hself : ∀ p, p = peer →
      (((s₁.detachAll peer).modifyPeer peer fun p => { p with attachedSessionIDs := ∅ }).peers p
        ).attachedSessionIDs = ∅ := fun p hp => by
    rw [hp]
    simp only [modifyPeer, Function.update_self]
  have hother : ∀ p, p ≠ peer →
      ((s₁.detachAll peer).modifyPeer peer fun p => { p with attachedSessionIDs := ∅ }).peers p
        = s.peers p := fun p hp => by
    simp only [modifyPeer, Function.update_of_ne hp, hpeers]
  refine ⟨fun p j hj => ?_, fun j p hj => ?_, fun j device hj => ?_, fun p hp => ?_⟩
  · by_cases hp : p = peer
    · rw [hself p hp] at hj
      exact absurd hj (Finset.notMem_empty j)
    · rw [hother p hp] at hj
      have hjp := h.attached p j hj
      show (s₁.detachAll peer).attachments.get? j = _
      rw [hatt j, hjp, if_neg fun heq => hp (Option.some.inj heq)]
  · change (s₁.detachAll peer).attachments.get? j = _ at hj
    show ((s₁.detachAll peer).sessions.get? j).isSome = true
    rw [hatt j] at hj
    split_ifs at hj
    rw [hsess]
    exact h.live j p hj
  · change (s₁.detachAll peer).holders.get? j = _ at hj
    show ((s₁.detachAll peer).attachments.get? j).isSome = true
    rw [hhold j] at hj
    split_ifs at hj with hjp
    rw [hatt j, if_neg hjp]
    exact h.held j device hj
  · by_cases hpp : p = peer
    · exact hself p hpp
    · rw [hother p hpp] at hp ⊢
      exact h.gone p hp

/-! ## Taking a session -/

theorem hold_books (s : SessionRegistry) (id peer : ℕ) (holder : Option String) :
    (s.hold id peer holder).sessions = s.sessions ∧ (s.hold id peer holder).peers = s.peers ∧
      (s.hold id peer holder).attachments = s.attachments.insert id peer ∧
        ∀ j, id ≠ j → (s.hold id peer holder).holders.get? j = s.holders.get? j := by
  cases holder with
  | none => exact ⟨rfl, rfl, rfl, fun j hj => by rw [hold, Dict.get?_erase, if_neg hj]⟩
  | some device =>
    have hs := sameBooks_notifyWatchers
      { s with
        attachments := s.attachments.insert id peer
        holders := s.holders.insert id device } (.sessionOpened id device)
    refine ⟨hs.sessions, hs.peers, hs.attachments, fun j hj => ?_⟩
    rw [hold, hs.holders]
    exact Dict.get?_insert_of_ne _ hj _

/-- **What an attach leaves**: `peer` holds the session, and no other peer believes to. -/
structure Taken (s s' : SessionRegistry) (id peer : ℕ) : Prop where
  live : (s.sessions.get? id).isSome
  sessions : s'.sessions = s.sessions
  attachments : s'.attachments = s.attachments.insert id peer
  holders : ∀ j, id ≠ j → s'.holders.get? j = s.holders.get? j
  own : s'.peers peer = s.peers peer
  others : ∀ p, p ≠ peer → id ∉ (s'.peers p).attachedSessionIDs ∧
    (s'.peers p).attachedSessionIDs ⊆ (s.peers p).attachedSessionIDs ∧
      (s'.peers p).isValid = (s.peers p).isValid

theorem Exclusive.attach (h : s.Exclusive) {id peer : ℕ} {holder : Option String} {takeover : Bool}
    {s' : SessionRegistry} (hok : s.attach id peer holder takeover = .ok s') :
    Taken s s' id peer := by
  have hlive : ¬ (s.sessions.get? id).isNone := fun hnone => by
    rw [SessionRegistry.attach, if_pos hnone] at hok
    cases hok
  have hsome : (s.sessions.get? id).isSome := by
    rw [Option.isSome_iff_ne_none]
    exact fun hnone => hlive (by rw [hnone]; rfl)
  rw [SessionRegistry.attach, if_neg hlive] at hok
  obtain ⟨hsess, hpeers, hatt, hhold⟩ := hold_books s id peer holder
  -- Nobody but the one attached believes to hold it.
  have hothers : (∀ p, s.attachments.get? id = some p → p = peer) →
      Taken s (s.hold id peer holder) id peer := fun honly => by
    refine ⟨hsome, hsess, hatt, hhold, by rw [hpeers], fun p hp => ?_⟩
    rw [hpeers]
    exact ⟨fun hmem => hp (honly p (h.attached p id hmem)), Finset.Subset.refl _, rfl⟩
  cases hexisting : s.attachments.get? id with
  | none =>
    rw [hexisting] at hok
    rw [← Except.ok.inj hok]
    exact hothers fun p hp => absurd (hexisting.symm.trans hp) (by simp)
  | some existing =>
    rw [hexisting] at hok
    dsimp only at hok
    split_ifs at hok with hsame
    · rw [← Except.ok.inj hok]
      exact hothers fun p hp => (Option.some.inj (hexisting.symm.trans hp)).symm.trans hsame
    · rw [← Except.ok.inj hok]
      obtain ⟨hsess, hpeers, hatt, hhold⟩ :=
        hold_books (s.deliverTaken existing id holder) id peer holder
      have hbooks := sameBooks_deliver (s.forget existing id) existing (.sessionTaken id holder)
      have hp' : (s.deliverTaken existing id holder).peers = (s.forget existing id).peers :=
        hbooks.peers
      refine ⟨hsome, hsess.trans hbooks.sessions,
        hatt.trans (by rw [deliverTaken, hbooks.attachments]; rfl), fun j hj =>
          (hhold j hj).trans (by rw [deliverTaken, hbooks.holders]; rfl), ?_, fun p hp => ?_⟩
      · rw [hpeers, hp']
        exact Function.update_of_ne (Ne.symm hsame) _ _
      · rw [hpeers, hp']
        by_cases hpe : p = existing
        · subst hpe
          simp only [SessionRegistry.forget, modifyPeer, Function.update_self]
          exact ⟨Finset.notMem_erase _ _, Finset.erase_subset _ _, trivial⟩
        · simp only [SessionRegistry.forget, modifyPeer, Function.update_of_ne hpe]
          exact ⟨fun hmem => hpe (Option.some.inj ((h.attached p id hmem).symm.trans hexisting)),
            Finset.Subset.refl _, trivial⟩

/-- The peer that took a session enters it in its own book. -/
theorem Exclusive.enter (h : s.Exclusive) {s' : SessionRegistry} {id peer : ℕ}
    (htaken : Taken s s' id peer) (hvalid : (s.peers peer).isValid = true) :
    (s'.modifyPeer peer fun p =>
      { p with attachedSessionIDs := insert id p.attachedSessionIDs }).Exclusive := by
  have hget : ∀ j, s'.attachments.get? j = if id = j then some peer else s.attachments.get? j :=
    fun j => by
    rw [htaken.attachments, Dict.get?_insert]
  refine ⟨fun p j hj => ?_, fun j p hj => ?_, fun j device hj => ?_, fun p hp => ?_⟩
  · show s'.attachments.get? j = some p
    rw [hget]
    by_cases hpp : p = peer
    · subst hpp
      simp only [modifyPeer, Function.update_self, htaken.own] at hj
      split_ifs with hid
      · rfl
      · exact h.attached p j ((Finset.mem_insert.mp hj).resolve_left (Ne.symm hid))
    · simp only [modifyPeer, Function.update_of_ne hpp] at hj
      obtain ⟨hnot, hsub, -⟩ := htaken.others p hpp
      rw [if_neg fun hid : id = j => hnot (hid ▸ hj)]
      exact h.attached p j (hsub hj)
  · show (s'.sessions.get? j).isSome = true
    change s'.attachments.get? j = some p at hj
    rw [htaken.sessions]
    rw [hget] at hj
    split_ifs at hj with hid
    · exact hid ▸ htaken.live
    · exact h.live j p hj
  · show (s'.attachments.get? j).isSome = true
    change s'.holders.get? j = some device at hj
    rw [hget]
    split_ifs with hid
    · rfl
    · rw [htaken.holders j hid] at hj
      exact h.held j device hj
  · by_cases hpp : p = peer
    · subst hpp
      simp only [modifyPeer, Function.update_self, htaken.own] at hp
      exact absurd (hvalid.symm.trans hp) (by simp)
    · simp only [modifyPeer, Function.update_of_ne hpp] at hp ⊢
      obtain ⟨-, hsub, hval⟩ := htaken.others p hpp
      rw [hval] at hp
      exact Finset.subset_empty.mp (h.gone p hp ▸ hsub)

/-- More sessions, or the same ones changed: the books still agree. -/
theorem Exclusive.of_sessions (h : s.Exclusive) {s' : SessionRegistry}
    (hpeers : s'.peers = s.peers) (hatt : s'.attachments = s.attachments)
    (hhold : s'.holders = s.holders)
    (hsess : ∀ id, (s.sessions.get? id).isSome → (s'.sessions.get? id).isSome) : s'.Exclusive := by
  refine ⟨?_, fun id p hp => ?_, ?_, ?_⟩
  · rw [hpeers, hatt]
    exact h.attached
  · rw [hatt] at hp
    exact hsess id (h.live id p hp)
  · rw [hhold, hatt]
    exact h.held
  · rw [hpeers]
    exact h.gone

theorem isSome_get?_insert {α : Type} (d : Dict ℕ α) (k : ℕ) (v : α) (j : ℕ)
    (h : (d.get? j).isSome) : ((d.insert k v).get? j).isSome := by
  rw [Dict.get?_insert]
  split_ifs
  · rfl
  · exact h

/-- Opening a session changes the sessions, and nothing else of the books. -/
theorem Exclusive.open_ (h : s.Exclusive) (columns rows : ℕ) (spawn : Spawn) :
    (s.open_ columns rows spawn).1.Exclusive ∧ (s.open_ columns rows spawn).1.peers = s.peers := by
  by_cases hcount : s.sessions.entries.length < maximumSessions
  swap
  · rw [SessionRegistry.open_.eq_def, if_pos hcount]
    exact ⟨h, rfl⟩
  rw [SessionRegistry.open_.eq_def, if_neg (not_not.mpr hcount)]
  cases spawn.planError with
  | some code => exact ⟨h, rfl⟩
  | none =>
    dsimp only
    split_ifs
    · exact ⟨h.of_sessions rfl rfl rfl fun id => isSome_get?_insert _ _ _ id, rfl⟩
    · exact ⟨h.of_sessions rfl rfl rfl fun _ hid => hid, rfl⟩

theorem Exclusive.attachSession (h : s.Exclusive) {peer : ℕ}
    (hvalid : (s.peers peer).isValid = true) (id : ℕ) (holder : Option String) (takeover : Bool) :
    (s.attachSession peer id holder takeover).1.Exclusive := by
  rw [SessionRegistry.attachSession]
  split
  · exact h
  · rename_i s' hok
    exact h.enter (h.attach hok) hvalid

theorem Exclusive.openSession (h : s.Exclusive) {peer : ℕ} (hvalid : (s.peers peer).isValid = true)
    (columns rows : ℕ) (holder : Option String) (spawn : Spawn) :
    (s.openSession peer columns rows holder spawn).1.Exclusive := by
  obtain ⟨hopen, hpeers⟩ := h.open_ columns rows spawn
  by_cases hcount : (s.peers peer).attachedSessionIDs.card < maximumSessionsPerPeer
  swap
  · rw [SessionRegistry.openSession.eq_def, if_pos hcount]
    exact h
  rw [SessionRegistry.openSession.eq_def, if_neg (not_not.mpr hcount)]
  generalize s.open_ columns rows spawn = opened at hopen hpeers
  rcases opened with ⟨s', code | id⟩
  · exact hopen
  · dsimp only at hopen hpeers ⊢
    cases hok : s'.attach id peer holder false with
    | error code => exact hopen
    | ok s'' => exact hopen.enter (hopen.attach hok) (by rw [hpeers]; exact hvalid)

theorem Exclusive.input (h : s.Exclusive) (id : ℕ) (session : Session) (data : Option (List UInt8))
    (paste : ℕ) (outcome : WriteOutcome) : (s.input id session data paste outcome).1.Exclusive := by
  rw [SessionRegistry.input]
  split
  · exact h
  · exact h.of_sessions rfl rfl rfl fun j => isSome_get?_insert _ _ _ j

theorem Exclusive.closeSession (h : s.Exclusive) (peer id : ℕ) :
    (s.closeSession peer id).1.Exclusive := by
  rw [SessionRegistry.closeSession, close]
  split
  · exact h
  · rename_i s' hok
    split_ifs at hok
    rw [← Except.ok.inj hok]
    have hclosed : ({ s with holders := s.holders.erase id } : SessionRegistry).Exclusive := by
      refine ⟨h.attached, h.live, fun j device hj => ?_, h.gone⟩
      rw [Dict.get?_erase] at hj
      split_ifs at hj
      exact h.held j device hj
    exact hclosed.forget peer id

/-! ## A shell that exits -/

/-- Telling peers of an exit: they let go of `id`, and the peer told first does if it is there. -/
theorem deliverExit_books (s : SessionRegistry) (peer id : ℕ) (exitCode : ℤ) :
    (s.deliverExit peer id exitCode).sessions = s.sessions ∧
      (s.deliverExit peer id exitCode).attachments = s.attachments ∧
      (s.deliverExit peer id exitCode).holders = s.holders ∧
      (s.deliverExit peer id exitCode).watchers = s.watchers ∧
      (∀ p, ((s.deliverExit peer id exitCode).peers p).attachedSessionIDs ⊆
          (s.peers p).attachedSessionIDs ∧
        ((s.deliverExit peer id exitCode).peers p).isValid = (s.peers p).isValid) ∧
      ((s.peers peer).isValid →
        id ∉ ((s.deliverExit peer id exitCode).peers peer).attachedSessionIDs) := by
  rw [deliverExit]
  split_ifs with hvalid
  · have hs := sameBooks_deliver s peer (.sessionExit id exitCode)
    have hw : (s.deliver peer (.sessionExit id exitCode)).watchers = s.watchers := by
      rw [deliver]
      split_ifs
      rfl
    refine ⟨hs.sessions, hs.attachments, hs.holders, hw, fun p => ?_, fun _ => ?_⟩
    · by_cases hp : p = peer
      · subst hp
        simp only [forget, modifyPeer, Function.update_self, hs.peers]
        exact ⟨Finset.erase_subset _ _, trivial⟩
      · simp only [forget, modifyPeer, Function.update_of_ne hp, hs.peers]
        exact ⟨Finset.Subset.refl _, trivial⟩
    · simp only [forget, modifyPeer, Function.update_self]
      exact Finset.notMem_erase _ _
  · exact ⟨rfl, rfl, rfl, rfl, fun p => ⟨Finset.Subset.refl _, rfl⟩, fun hv => absurd hv hvalid⟩

theorem foldl_deliverExit_books (id : ℕ) (exitCode : ℤ) : ∀ (ws : List ℕ) (s : SessionRegistry),
    let s' := ws.foldl (fun s w => s.deliverExit w id exitCode) s
    s'.sessions = s.sessions ∧ s'.attachments = s.attachments ∧ s'.holders = s.holders ∧
      ∀ p, (s'.peers p).attachedSessionIDs ⊆ (s.peers p).attachedSessionIDs ∧
        (s'.peers p).isValid = (s.peers p).isValid
  | [], s => ⟨rfl, rfl, rfl, fun p => ⟨Finset.Subset.refl _, rfl⟩⟩
  | w :: ws, s => by
      obtain ⟨hs, ha, hh, -, hp, -⟩ := deliverExit_books s w id exitCode
      obtain ⟨ihs, iha, ihh, ihp⟩ :=
        foldl_deliverExit_books id exitCode ws (s.deliverExit w id exitCode)
      exact ⟨ihs.trans hs, iha.trans ha, ihh.trans hh, fun p =>
        ⟨(ihp p).1.trans (hp p).1, (ihp p).2.trans (hp p).2⟩⟩

/-- **A shell that exits is held by nobody.** -/
theorem Exclusive.handleExit (h : s.Exclusive) (id : ℕ) (exitCode : ℤ) :
    (s.handleExit id exitCode).Exclusive := by
  -- The one attached is told, so that no peer believes to hold it when it goes.
  have htold : ∃ s₁, s.deliverExitTo (s.attachments.get? id) id exitCode = s₁ ∧
      s₁.sessions = s.sessions ∧ s₁.attachments = s.attachments ∧ s₁.holders = s.holders ∧
      (∀ p, (s₁.peers p).attachedSessionIDs ⊆ (s.peers p).attachedSessionIDs ∧
        (s₁.peers p).isValid = (s.peers p).isValid) ∧
        ∀ p, id ∉ (s₁.peers p).attachedSessionIDs := by
    cases hatt : s.attachments.get? id with
    | none =>
      refine ⟨s, rfl, rfl, rfl, rfl, fun p => ⟨Finset.Subset.refl _, rfl⟩, fun p hmem => ?_⟩
      exact absurd (hatt.symm.trans (h.attached p id hmem)) (by simp)
    | some peer =>
      obtain ⟨hs, ha, hh, -, hp, hid⟩ := deliverExit_books s peer id exitCode
      refine ⟨s.deliverExit peer id exitCode, rfl, hs, ha, hh, hp, fun p hmem => ?_⟩
      have hbelieved := (hp p).1 hmem
      obtain rfl := Option.some.inj ((h.attached p id hbelieved).symm.trans hatt)
      refine hid ?_ hmem
      by_contra hgone
      rw [h.gone p (by simpa using hgone)] at hbelieved
      exact absurd hbelieved (Finset.notMem_empty id)
  obtain ⟨s₁, hs₁, hsess, hatt, hhold, hpeers, hid⟩ := htold
  rw [SessionRegistry.handleExit, hs₁]
  obtain ⟨hsess', hatt', hhold', hpeers'⟩ := foldl_deliverExit_books id exitCode
    (s₁.watchers.filter fun w => some w ≠ s.attachments.get? id) s₁
  refine h.shrink id (fun p => ⟨(hpeers' p).1.trans (hpeers p).1, (hpeers' p).2.trans (hpeers p).2⟩)
    (fun p hmem => hid p ((hpeers' p).1 hmem)) (fun j => ?_) (fun j => ?_) fun j hj => ?_
  · simp only [discard]
    rw [Dict.get?_erase, hatt', hatt]
  · simp only [discard]
    rw [Dict.get?_erase, hhold', hhold]
  · simp only [discard]
    rw [Dict.get?_erase, if_neg hj, hsess', hsess]

/-! ## Every step -/

theorem Exclusive.perform (h : s.Exclusive) {peer : ℕ} (hvalid : (s.peers peer).isValid = true)
    (request : Request) : (s.perform peer request).1.Exclusive := by
  cases request with
  | hello watchSessions =>
    have hhello : (s.modifyPeer peer fun p => { p with didHandshake := true }).Exclusive := by
      refine ⟨fun p j hj => ?_, h.live, h.held, fun p hp => ?_⟩
      · by_cases hpp : p = peer
        · subst hpp
          simp only [modifyPeer, Function.update_self] at hj
          exact h.attached p j hj
        · simp only [modifyPeer, Function.update_of_ne hpp] at hj
          exact h.attached p j hj
      · by_cases hpp : p = peer
        · subst hpp
          simp only [modifyPeer, Function.update_self] at hp ⊢
          exact h.gone p hp
        · simp only [modifyPeer, Function.update_of_ne hpp] at hp ⊢
          exact h.gone p hp
    rw [SessionRegistry.perform]
    dsimp only
    split_ifs
    · exact hhello.of_same ⟨rfl, rfl, rfl, rfl⟩
    · exact hhello
  | openSession columns rows holder spawn => exact h.openSession hvalid columns rows holder spawn
  | attachSession id holder takeover => exact h.attachSession hvalid id holder takeover
  | detachSession id => exact h.detachSession peer id
  | write id data paste outcome =>
    rw [SessionRegistry.perform, SessionRegistry.write]
    split
    · exact h
    · exact h.input id _ data paste outcome
  | resize id columns rows =>
    rw [SessionRegistry.perform, SessionRegistry.resize]
    split
    · exact h
    · split_ifs
      · exact h.of_sessions rfl rfl rfl fun j => isSome_get?_insert _ _ _ j
      · exact h
      · exact h
  | closeSession id => exact h.closeSession peer id
  | injectInput id data paste outcome =>
    rw [SessionRegistry.perform, SessionRegistry.injectInput]
    split
    · exact h
    · exact h.input id _ data paste outcome
  | goodbye => exact h.invalidate peer

/-- **Every request, exit and lost connection keeps the three records in agreement.** -/
theorem Exclusive.step (h : s.Exclusive) (e : Event) : (s.step e).Exclusive := by
  cases e with
  | request peer request =>
    by_cases hvalid : (s.peers peer).isValid = true
    · rw [SessionRegistry.step, handle, if_neg (not_not.mpr hvalid)]
      split_ifs
      · exact h.perform hvalid request
      · exact h
    · rw [SessionRegistry.step, handle, if_pos hvalid]
      exact h
  | exit id exitCode => exact h.handleExit id exitCode
  | peerGone peer => exact h.invalidate peer

theorem exclusive_start (sessionIDs : SessionIDReservation) :
    ({ sessionIDs } : SessionRegistry).Exclusive :=
  ⟨nofun, nofun, nofun, fun _ h => absurd h (by simp)⟩

/-! ## Who may write and resize -/

/-- A request to write to or resize a session. -/
inductive Uses (id : ℕ) : Request → Prop
  | write (data : Option (List UInt8)) (paste : ℕ) (outcome : WriteOutcome) :
      Uses id (.write id data paste outcome)
  | resize (columns rows : ℕ) : Uses id (.resize id columns rows)

/-- Some request of `peer` to write to or resize `id` gets to the session: it is answered, and not
that there is no such session. -/
def MayUse (s : SessionRegistry) (peer id : ℕ) : Prop :=
  ∃ request, Uses id request ∧ ∃ code, (s.handle peer request).2 = some code ∧
    code ≠ .handshakeRequired ∧ code ≠ .unknownSession

/-- What gets to a session comes from the peer attached to it. -/
theorem Exclusive.attachments_of_mayUse (h : s.Exclusive) {peer id : ℕ} (huse : s.MayUse peer id) :
    s.attachments.get? id = some peer ∧ (s.sessions.get? id).isSome := by
  obtain ⟨request, hreq, code, hcode, hhand, hunknown⟩ := huse
  have hgate : s.attachedSession peer id ≠ none := by
    intro hnone
    rw [handle] at hcode
    split_ifs at hcode
    · cases hreq with
      | write data paste outcome =>
        simp only [SessionRegistry.perform, SessionRegistry.write, hnone] at hcode
        exact hunknown (Option.some.inj hcode).symm
      | resize columns rows =>
        simp only [SessionRegistry.perform, SessionRegistry.resize, hnone] at hcode
        exact hunknown (Option.some.inj hcode).symm
    · exact hhand (Option.some.inj hcode).symm
  rw [attachedSession] at hgate
  split_ifs at hgate with hmem
  · have hatt := h.attached peer id hmem
    exact ⟨hatt, h.live id peer hatt⟩
  · exact absurd rfl hgate

/-! ## Losing a session -/

/-- The events by which `peer` may come to hold `id`. -/
def Takes (peer id : ℕ) : Event → Prop
  | .request p (.attachSession j _ _) => p = peer ∧ j = id
  | .request p (.openSession _ _ _ _) => p = peer
  | _ => False

/-- The events by which `peer` loses `id`: another attaches to it, or it detaches itself. -/
inductive Loses (s : SessionRegistry) (peer id : ℕ) : Event → Prop
  | taken {q : ℕ} {holder : Option String} {takeover : Bool} (hq : q ≠ peer)
      (hok : (s.handle q (.attachSession id holder takeover)).2 = some .success) :
      Loses s peer id (.request q (.attachSession id holder takeover))
  | detached (hok : (s.handle peer (.detachSession id)).2 = some .success) :
      Loses s peer id (.request peer (.detachSession id))

theorem get?_insert_cases {d : Dict ℕ ℕ} {j q id p : ℕ} (h : (d.insert j q).get? id = some p) :
    d.get? id = some p ∨ (q = p ∧ j = id) := by
  rw [Dict.get?_insert] at h
  split_ifs at h with hj
  · exact Or.inr ⟨Option.some.inj h, hj⟩
  · exact Or.inl h

theorem attachments_invalidate (s : SessionRegistry) {q id p : ℕ}
    (h : (s.invalidate q).attachments.get? id = some p) : s.attachments.get? id = some p := by
  rw [SessionRegistry.invalidate] at h
  split_ifs at h
  · dsimp only [modifyPeer] at h
    rw [(detachAll_books _ q).2.2.1 id] at h
    split_ifs at h
    exact h
  · exact h

/-- Attachments after a request. -/
theorem Exclusive.attachments_perform (h : s.Exclusive) {q id p : ℕ} {request : Request}
    (hp : (s.perform q request).1.attachments.get? id = some p) :
    s.attachments.get? id = some p ∨ Takes p id (.request q request) := by
  cases request with
  | hello watchSessions =>
    rw [SessionRegistry.perform] at hp
    dsimp only at hp
    split_ifs at hp
    · exact Or.inl hp
    · exact Or.inl hp
  | openSession columns rows holder spawn =>
    obtain ⟨hopen, hpeers⟩ := h.open_ columns rows spawn
    have hatt : (s.open_ columns rows spawn).1.attachments = s.attachments := by
      rw [SessionRegistry.open_.eq_def]
      repeat' split
      all_goals rfl
    rw [SessionRegistry.perform, SessionRegistry.openSession.eq_def] at hp
    split at hp
    · exact Or.inl hp
    · generalize s.open_ columns rows spawn = opened at hopen hatt hp
      rcases opened with ⟨s', code | new⟩
      · exact Or.inl (hatt ▸ hp)
      · dsimp only at hopen hatt hp
        cases hok : s'.attach new q holder false with
        | error code =>
          rw [hok] at hp
          exact Or.inl (hatt ▸ hp)
        | ok s'' =>
          rw [hok] at hp
          change s''.attachments.get? id = some p at hp
          rw [(hopen.attach hok).attachments, hatt] at hp
          exact (get?_insert_cases hp).imp_right fun hc => hc.1
  | attachSession j holder takeover =>
    rw [SessionRegistry.perform, SessionRegistry.attachSession] at hp
    cases hok : s.attach j q holder takeover with
    | error code =>
      rw [hok] at hp
      exact Or.inl hp
    | ok s' =>
      rw [hok] at hp
      change s'.attachments.get? id = some p at hp
      rw [(h.attach hok).attachments] at hp
      exact get?_insert_cases hp
  | detachSession j =>
    rw [SessionRegistry.perform, SessionRegistry.detachSession, detach] at hp
    split_ifs at hp
    · change (s.vacate j).attachments.get? id = some p at hp
      rw [(vacate_books s j).2.2.1 id] at hp
      split_ifs at hp
      exact Or.inl hp
    · exact Or.inl hp
  | write j data paste outcome =>
    rw [SessionRegistry.perform, SessionRegistry.write] at hp
    split at hp
    · exact Or.inl hp
    · rw [SessionRegistry.input] at hp
      split at hp <;> exact Or.inl hp
  | resize j columns rows =>
    rw [SessionRegistry.perform, SessionRegistry.resize] at hp
    repeat' split at hp
    all_goals exact Or.inl hp
  | closeSession j =>
    rw [SessionRegistry.perform, SessionRegistry.closeSession, close] at hp
    split_ifs at hp
    · exact Or.inl hp
    · exact Or.inl hp
  | injectInput j data paste outcome =>
    rw [SessionRegistry.perform, SessionRegistry.injectInput] at hp
    split at hp
    · exact Or.inl hp
    · rw [SessionRegistry.input] at hp
      split at hp <;> exact Or.inl hp
  | goodbye => exact Or.inl (attachments_invalidate s hp)

theorem attachments_handleExit (s : SessionRegistry) (j : ℕ) (exitCode : ℤ) (id : ℕ) :
    (s.handleExit j exitCode).attachments.get? id =
      if j = id then none else s.attachments.get? id := by
  have htold : ∀ attached, (s.deliverExitTo attached j exitCode).attachments = s.attachments := by
    intro attached
    cases attached with
    | none => rfl
    | some peer => exact (deliverExit_books s peer j exitCode).2.1
  simp only [SessionRegistry.handleExit, discard]
  rw [Dict.get?_erase, (foldl_deliverExit_books j exitCode _ _).2.1, htold]

/-- **A peer comes to hold a session by its own request only.** -/
theorem Exclusive.attachments_step (h : s.Exclusive) {id p : ℕ} {e : Event}
    (hp : (s.step e).attachments.get? id = some p) :
    s.attachments.get? id = some p ∨ Takes p id e := by
  cases e with
  | request q request =>
    rw [SessionRegistry.step, handle] at hp
    split_ifs at hp
    · exact h.attachments_perform hp
    · exact Or.inl hp
    · exact Or.inl hp
  | exit j exitCode =>
    rw [SessionRegistry.step, attachments_handleExit] at hp
    split_ifs at hp
    exact Or.inl hp
  | peerGone q => exact Or.inl (attachments_invalidate s hp)

theorem attach_error {id peer : ℕ} {holder : Option String} {takeover : Bool} {code : Code}
    (h : s.attach id peer holder takeover = .error code) :
    code = .unknownSession ∨ code = .sessionBusy := by
  rw [SessionRegistry.attach] at h
  split at h
  · exact Or.inl (Except.error.inj h).symm
  · split at h
    · cases h
    · split_ifs at h
      exact Or.inr (Except.error.inj h).symm

theorem Exclusive.attachments_of_loses (h : s.Exclusive) {id p : ℕ} {e : Event}
    (hl : Loses s p id e) :
    (s.step e).attachments.get? id ≠ some p := by
  cases hl with
  | @taken q holder takeover hq hok =>
    rw [SessionRegistry.step]
    rw [handle] at hok ⊢
    split_ifs at hok ⊢
    · simp only [SessionRegistry.perform, SessionRegistry.attachSession] at hok ⊢
      cases hatt : s.attach id q holder takeover with
      | error code =>
        rw [hatt] at hok
        have hcode : code = .success := Option.some.inj hok
        rcases attach_error hatt with h | h <;> exact absurd (hcode.symm.trans h) (by simp)
      | ok s' =>
        show s'.attachments.get? id ≠ some p
        rw [(h.attach hatt).attachments, Dict.get?_insert_self]
        exact fun heq => hq (Option.some.inj heq)
    · exact absurd (Option.some.inj hok) (by simp)
  | detached hok =>
    rw [SessionRegistry.step]
    rw [handle] at hok ⊢
    split_ifs at hok ⊢
    · simp only [SessionRegistry.perform, SessionRegistry.detachSession, detach]
      split_ifs with hatt
      · show (s.vacate id).attachments.get? id ≠ some p
        rw [(vacate_books s id).2.2.1 id, if_pos rfl]
        exact nofun
      · exact hatt
    · exact absurd (Option.some.inj hok) (by simp)

/-- A peer that lost a session gets nothing to it until it asks for one again. -/
theorem Exclusive.not_mayUse_after (h : s.Exclusive) {id p : ℕ}
    (hatt : s.attachments.get? id ≠ some p) (later : List Event)
    (hlater : ∀ e ∈ later, ¬ Takes p id e) :
    ¬ (Run.after SessionRegistry.step s later).MayUse p id := by
  induction later generalizing s with
  | nil => exact fun huse => hatt (h.attachments_of_mayUse huse).1
  | cons e later ih =>
    refine ih (h.step e) (fun hp => ?_) fun e' he' => hlater e' (List.mem_cons_of_mem e he')
    rcases h.attachments_step hp with hp | ht
    · exact hatt hp
    · exact hlater e List.mem_cons_self ht

/-- **The holder of a session is one peer, in every run**: what a peer believes to hold it is
attached to and lives; no two peers get to one session, and one that lost it gets to it no more;
holders name attached sessions and attachments live ones. -/
theorem run_exclusive (sessionIDs : SessionIDReservation) (events : List Event) :
    let s := Run.after step { sessionIDs } events
    (∀ p id, (s.peers p).isValid = true → id ∈ (s.peers p).attachedSessionIDs →
      s.attachments.get? id = some p ∧ (s.sessions.get? id).isSome) ∧
    (∀ p q id, s.MayUse p id → s.MayUse q id → p = q) ∧
    (∀ p id e, Loses s p id e → ∀ later, (∀ e' ∈ later, ¬ Takes p id e') →
      ¬ (Run.after step (s.step e) later).MayUse p id) ∧
    (∀ id device, s.holders.get? id = some device → (s.attachments.get? id).isSome) ∧
    ∀ id p, s.attachments.get? id = some p → (s.sessions.get? id).isSome := by
  intro s
  have h : s.Exclusive :=
    Run.invariant (fun s e (h : s.Exclusive) => h.step e) events (exclusive_start sessionIDs)
  refine ⟨fun p id _ hid => ?_, fun p q id hp hq => ?_, fun p id e hl later hlater => ?_,
    h.held, h.live⟩
  · exact ⟨h.attached p id hid, h.live id p (h.attached p id hid)⟩
  · have hpa := (h.attachments_of_mayUse hp).1
    have hqa := (h.attachments_of_mayUse hq).1
    exact Option.some.inj (hpa.symm.trans hqa)
  · exact (h.step e).not_mayUse_after (h.attachments_of_loses hl) later hlater

/-- One peer opens a session, another takes it over. -/
def takenOver : SessionRegistry :=
  Run.after step { sessionIDs := ⟨7, 71⟩ }
    [.request 0 (.hello false), .request 0 (.openSession 80 24 none ⟨none, true, []⟩),
      .request 1 (.hello true), .request 1 (.attachSession 7 (some "phone") true)]

example : (takenOver.handle 0 (.resize 7 100 40)).2 = some .unknownSession ∧
    (takenOver.handle 1 (.resize 7 100 40)).2 = some .success ∧
      takenOver.holders.get? 7 = some "phone" := by decide

end SessionRegistry
