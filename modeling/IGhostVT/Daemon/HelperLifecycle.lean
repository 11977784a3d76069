import IGhostVT.Daemon.ProxyAccounting
import IGhostVT.Daemon.RemoteSupervisor

/-!
# Daemon/HelperLifecycle — one helper at a time, and always another one coming

In every run there is at most one child that is not reaped, and it is the one tracked; every
management request is answered once or waits on the channel; and while the switch is on and nothing
serves, an exit, a reap retry or a respawn is pending that brings a helper up (`run_supervised`).

What does not hold in every run is that a live helper is left alone.  A reap asks again until the
child is taken, and the channel's close makes it ask twice: the second retry outlives the child, and
finds the next one (`run_cut`).  `run_supervised` says that it is exactly such a retry that cuts a
helper.
-/

namespace RemoteSupervisor

open Run

variable {s t : RemoteSupervisor}

/-! ## Children -/

/-- What is known of the children at any point of any step. -/
structure Children (s : RemoteSupervisor) : Prop where
  child : s.childPID ≠ 0 → s.childPID = s.spawned ∧ s.childPID ∉ s.reaped
  tracked : ∀ child, 0 < child → child ≤ s.spawned → child ∉ s.reaped → child = s.childPID
  waitable : ∀ child ∈ s.waitable, child ∈ s.exited ∧ child ∉ s.reaped
  exited : ∀ child ∈ s.exited, child ≤ s.spawned
  taken : ∀ child ∈ s.reaped, child ≤ s.spawned
  retries : ∀ child ∈ s.retries, child ≤ s.spawned

/-- What is known between steps, but for the retry a child without a channel has. -/
structure Supervised (s : RemoteSupervisor) : Prop extends Children s where
  linked : s.channel.isSome → s.childPID = s.spawned ∧ 0 < s.spawned ∧ s.hasExitSource = true
  leftover : s.channel.isSome → ∀ child ∈ s.retries, child < s.spawned
  respawns : s.isEnabled → s.channel = none → s.childPID = 0 → s.respawnScheduled = true
  dormant : s.isEnabled → s.channel.isSome → s.childIsDormant →
    s.childPID ∈ s.signalled ∨ s.childPID ∈ s.exited

/-- …and with it. -/
structure Kept (s : RemoteSupervisor) : Prop extends Supervised s where
  retried : s.channel = none → s.childPID ≠ 0 → s.childPID ∈ s.retries

/-- A step that touches neither the children nor what is scheduled for them. -/
theorem Children.of_same (h : Children s) (hchild : t.childPID = s.childPID)
    (hspawned : t.spawned = s.spawned) (hreaped : t.reaped = s.reaped)
    (hwaitable : t.waitable = s.waitable) (hexited : t.exited = s.exited)
    (hretries : t.retries = s.retries) : Children t := by
  obtain ⟨h1, h2, h3, h4, h5, h6⟩ := h
  refine ⟨?_, ?_, ?_, ?_, ?_, ?_⟩
  · rwa [hchild, hspawned, hreaped]
  · rwa [hchild, hspawned, hreaped]
  · rwa [hwaitable, hexited, hreaped]
  · rwa [hexited, hspawned]
  · rwa [hreaped, hspawned]
  · rwa [hretries, hspawned]

theorem Children.childPID_le (h : Children s) : s.childPID ≤ s.spawned := by
  by_cases hne : s.childPID = 0
  · omega
  · exact (h.child hne).1.le

theorem Children.becomeWaitable (h : Children s) (child : ℕ) :
    Children (s.becomeWaitable child) := by
  rw [RemoteSupervisor.becomeWaitable]
  split_ifs with hexit
  · refine ⟨h.child, h.tracked, fun other hother => ?_, h.exited, h.taken, h.retries⟩
    rcases List.mem_append.mp hother with hold | hnew
    · exact h.waitable other hold
    · rw [List.mem_singleton.mp hnew]
      exact ⟨hexit.1, hexit.2.2⟩
  · exact h

/-- The child is taken. -/
theorem Children.reaping (h : Children s) :
    Children
      { s with
        waitable := s.waitable.filter fun child => child ≠ s.childPID
        reaped := s.reaped ++ [s.childPID]
        childPID := 0 } := by
  refine ⟨fun hno => absurd rfl hno, fun child hpos hle hnot => ?_, fun child hchild => ?_,
    h.exited, fun child hchild => ?_, h.retries⟩
  · rw [List.mem_append, not_or] at hnot
    exact absurd (h.tracked child hpos hle hnot.1) (by simpa using hnot.2)
  · obtain ⟨hmem, hother⟩ := List.mem_filter.mp hchild
    obtain ⟨hexit, hnot⟩ := h.waitable child hmem
    refine ⟨hexit, fun hno => ?_⟩
    rcases List.mem_append.mp hno with hold | hnew
    · exact hnot hold
    · exact absurd (List.mem_singleton.mp hnew) (of_decide_eq_true hother)
  · rcases List.mem_append.mp hchild with hold | hnew
    · exact h.taken child hold
    · rw [List.mem_singleton.mp hnew]
      exact h.childPID_le

/-- Nothing is left of the link, and the child that had it, or the next one, is seen to. -/
structure Unlinked (s : RemoteSupervisor) : Prop extends Children s where
  channel : s.channel = none
  retried : s.childPID ≠ 0 → s.childPID ∈ s.retries
  respawns : s.isEnabled → s.childPID = 0 → s.respawnScheduled = true

theorem Unlinked.kept (h : Unlinked s) : Kept s where
  toChildren := h.toChildren
  linked := fun hsome => absurd h.channel (Option.isSome_iff_ne_none.mp hsome)
  leftover := fun hsome => absurd h.channel (Option.isSome_iff_ne_none.mp hsome)
  respawns := fun hon _ => h.respawns hon
  dormant := fun _ hsome => absurd h.channel (Option.isSome_iff_ne_none.mp hsome)
  retried := fun _ => h.retried

/-! ## Reaping -/

section Reap

variable (close : RemoteSupervisor → RemoteSupervisor)

theorem reapWith_of_none (h : s.childPID = 0) : s.reapWith close = s := if_pos h

/-- The child cannot be taken yet. -/
theorem reapWith_of_notMem (hne : s.childPID ≠ 0) (h : s.childPID ∉ s.waitable) :
    s.reapWith close = { close s with retries := (close s).retries ++ [s.childPID] } := by
  rw [reapWith, if_neg hne, waitpid, if_neg h]

/-- The child is taken. -/
theorem reapWith_of_mem (hne : s.childPID ≠ 0) (h : s.childPID ∈ s.waitable) :
    s.reapWith close =
      let taken := close
        { s with
          waitable := s.waitable.filter fun child => child ≠ s.childPID
          reaped := s.reaped ++ [s.childPID]
          childPID := 0 }
      if taken.isEnabled ∧ taken.channel.isNone then taken.scheduleRespawn else taken := by
  rw [reapWith, if_neg hne, waitpid, if_pos h]

end Reap

/-- A retry more, for a child there was. -/
theorem Children.retrying (h : Children s) {child : ℕ} (hchild : child ≤ s.spawned) :
    Children { s with retries := s.retries ++ [child] } := by
  refine ⟨h.child, h.tracked, h.waitable, h.exited, h.taken, fun other hmem => ?_⟩
  rcases List.mem_append.mp hmem with hold | hnew
  · exact h.retries other hold
  · rw [List.mem_singleton.mp hnew]
    exact hchild

/-- **Reaped with no channel left**: the child is taken, or has its retry. -/
theorem Children.reapWith_id (h : Children s) (hnone : s.channel = none) :
    Children (s.reapWith id) ∧ (s.reapWith id).channel = none ∧
      (s.reapWith id).childPID ≤ s.childPID ∧
      ((s.reapWith id).childPID ≠ 0 → (s.reapWith id).childPID ∈ (s.reapWith id).retries) := by
  by_cases hne : s.childPID = 0
  · rw [reapWith_of_none id hne]
    exact ⟨h, hnone, le_rfl, fun hno => absurd hne hno⟩
  by_cases hmem : s.childPID ∈ s.waitable
  · rw [reapWith_of_mem id hne hmem]
    dsimp only [id]
    have htaken := h.reaping
    split_ifs
    · exact ⟨htaken.of_same rfl rfl rfl rfl rfl rfl, hnone, Nat.zero_le _,
        fun hno => absurd rfl hno⟩
    · exact ⟨htaken, hnone, Nat.zero_le _, fun hno => absurd rfl hno⟩
  · rw [reapWith_of_notMem id hne hmem]
    exact ⟨h.retrying h.childPID_le, hnone, le_rfl,
      fun _ => List.mem_append_right _ (List.mem_singleton_self _)⟩

/-- What reaping with no channel left leaves alone. -/
theorem reapWith_id_eq (s : RemoteSupervisor) :
    ∃ childPID waitable reaped retries respawnScheduled,
      s.reapWith id = { s with childPID, waitable, reaped, retries, respawnScheduled } := by
  by_cases hne : s.childPID = 0
  · rw [reapWith_of_none id hne]
    exact ⟨_, _, _, _, _, rfl⟩
  by_cases hmem : s.childPID ∈ s.waitable
  · rw [reapWith_of_mem id hne hmem]
    dsimp only [id]
    split_ifs
    · exact ⟨_, _, _, _, _, rfl⟩
    · exact ⟨_, _, _, _, _, rfl⟩
  · rw [reapWith_of_notMem id hne hmem]
    exact ⟨_, _, _, _, _, rfl⟩

/-- …and what the close of the channel does. -/
theorem handleLinkClosed_eq (late : Bool) (s : RemoteSupervisor) :
    ∃ childPID waitable reaped retries respawnScheduled,
      s.handleLinkClosed late =
        { s with
          channel := none
          hasExitSource := false
          pending := ∅
          completions := s.completions ++
            s.pending.entries.map fun e => (e.2, ManagementAnswer.offlineStatus s.isEnabled)
          childPID, waitable, reaped, retries, respawnScheduled } := by
  rw [handleLinkClosed]
  dsimp only
  generalize hlate : (if late = true then _ else _ : RemoteSupervisor) = u
  obtain ⟨w, hu⟩ : ∃ waitable, u =
      { s with
        channel := none
        hasExitSource := false
        pending := ∅
        completions := s.completions ++
          s.pending.entries.map fun e => (e.2, ManagementAnswer.offlineStatus s.isEnabled)
        waitable } := by
    rw [← hlate, becomeWaitable]
    split_ifs
    · exact ⟨_, rfl⟩
    · exact ⟨_, rfl⟩
    · exact ⟨_, rfl⟩
  obtain ⟨a, b, c, d, e, heq⟩ := reapWith_id_eq u
  rw [heq, hu]
  split_ifs
  · exact ⟨_, _, _, _, _, rfl⟩
  · exact ⟨_, _, _, _, _, rfl⟩

/-- **The channel is closed**: the child it was of is taken or has its retry, and while the switch
is on another one is scheduled. -/
theorem Children.handleLinkClosed (h : Children s) (late : Bool) :
    Unlinked (s.handleLinkClosed late) ∧ (s.handleLinkClosed late).childPID ≤ s.childPID := by
  rw [RemoteSupervisor.handleLinkClosed]
  dsimp only
  generalize hlate : (if late = true then _ else _ : RemoteSupervisor) = u
  have hu : Children u ∧ u.channel = none ∧ u.childPID = s.childPID := by
    rw [← hlate]
    have hclosed : Children
        { s with
          channel := none
          hasExitSource := false
          pending := ∅
          completions := s.completions ++
            s.pending.entries.map fun e => (e.2, ManagementAnswer.offlineStatus s.isEnabled) } :=
      h.of_same rfl rfl rfl rfl rfl rfl
    split_ifs
    · refine ⟨hclosed.becomeWaitable _, ?_, ?_⟩
      · rw [RemoteSupervisor.becomeWaitable]
        split_ifs <;> rfl
      · rw [RemoteSupervisor.becomeWaitable]
        split_ifs <;> rfl
    · exact ⟨hclosed, rfl, rfl⟩
  obtain ⟨hchildren, hnone, hle, hretried⟩ := hu.1.reapWith_id hu.2.1
  rw [hu.2.2] at hle
  split_ifs with henabled
  · exact ⟨⟨hchildren.of_same rfl rfl rfl rfl rfl rfl, hnone, hretried, fun _ _ => rfl⟩, hle⟩
  · exact ⟨⟨hchildren, hnone, hretried, fun hno => absurd hno henabled⟩, hle⟩

theorem closeChannel_of_none (late : Bool) (h : s.channel = none) : closeChannel late s = s := by
  rw [closeChannel, h]

theorem closeChannel_of_isSome (late : Bool) (h : s.channel.isSome) :
    closeChannel late s = handleLinkClosed late
      { s with cut := if s.spawned ∈ s.exited then s.cut else s.cut ++ [s.spawned] } := by
  obtain ⟨channel, hchannel⟩ := Option.isSome_iff_exists.mp h
  rw [closeChannel]
  split
  · rename_i hnone
    exact absurd (hchannel.symm.trans hnone) (by simp)
  · rfl

/-- Closing the channel there is, or is not: none is left, and a child that had it and was not taken
has its retry. -/
theorem Children.closeChannel (h : Children s) (late : Bool) :
    Children (s.closeChannel late) ∧ (s.closeChannel late).channel = none ∧
      (s.closeChannel late).spawned = s.spawned ∧ (s.closeChannel late).childPID ≤ s.childPID ∧
      (s.channel.isSome → Unlinked (s.closeChannel late)) := by
  cases hchannel : s.channel with
  | none =>
    rw [closeChannel_of_none late hchannel]
    exact ⟨h, hchannel, rfl, le_rfl, fun hno => (by simp at hno)⟩
  | some channel =>
    rw [closeChannel_of_isSome late (by simp [hchannel])]
    have hcut : Children
        { s with cut := if s.spawned ∈ s.exited then s.cut else s.cut ++ [s.spawned] } :=
      h.of_same rfl rfl rfl rfl rfl rfl
    obtain ⟨hclosed, hle⟩ := hcut.handleLinkClosed late
    obtain ⟨_, _, _, _, _, heq⟩ := handleLinkClosed_eq late
      { s with cut := if s.spawned ∈ s.exited then s.cut else s.cut ++ [s.spawned] }
    exact ⟨hclosed.toChildren, hclosed.channel, by rw [heq], hle, fun _ => hclosed⟩

/-- **A reap keeps what is known between steps**, and gives the child it cannot take a retry. -/
theorem Supervised.reap (h : Supervised s) (late : Bool) : Kept (s.reap late) := by
  rw [RemoteSupervisor.reap]
  by_cases hne : s.childPID = 0
  · rw [reapWith_of_none _ hne]
    exact ⟨h, fun _ hno => absurd hne hno⟩
  by_cases hmem : s.childPID ∈ s.waitable
  · rw [reapWith_of_mem _ hne hmem]
    obtain ⟨hchildren, hnone, -, hle, -⟩ := h.toChildren.reaping.closeChannel late
    dsimp only
    split_ifs with hon
    · refine Unlinked.kept
        ⟨hchildren.of_same rfl rfl rfl rfl rfl rfl, hnone, fun hno => ?_, fun _ _ => rfl⟩
      exact absurd (Nat.le_zero.mp hle) hno
    · refine Unlinked.kept ⟨hchildren, hnone, fun hno => ?_, fun henabled => ?_⟩
      · exact absurd (Nat.le_zero.mp hle) hno
      · exact absurd ⟨henabled, Option.isNone_iff_eq_none.mpr hnone⟩ hon
  · rw [reapWith_of_notMem _ hne hmem]
    obtain ⟨hchildren, hnone, hspawned, -, hunlinked⟩ := h.toChildren.closeChannel late
    have hretrying := hchildren.retrying (h.childPID_le.trans hspawned.ge)
    cases hchannel : s.channel with
    | none =>
      rw [closeChannel_of_none late hchannel] at hretrying ⊢
      refine Unlinked.kept ⟨hretrying, hchannel, fun _ => ?_, fun _ hno => absurd hno hne⟩
      exact List.mem_append_right _ (List.mem_singleton_self _)
    | some channel =>
      have hclosed := hunlinked (by simp [hchannel])
      refine Unlinked.kept ⟨hretrying, hnone, fun hno => ?_, hclosed.respawns⟩
      exact List.mem_append_left _ (hclosed.retried hno)

/-- A child that is spawned when there is none. -/
theorem Children.spawn (h : Children s) (hne : s.childPID = 0) {dormant : Bool}
    (hoff : dormant → ¬ s.isEnabled) : Kept (s.spawn dormant) where
  child := fun _ => ⟨rfl, fun hreaped => absurd (h.taken _ hreaped) (Nat.not_succ_le_self _)⟩
  tracked := fun child hpos hle hnot => by
    rcases Nat.lt_or_ge s.spawned child with hnew | hold
    · exact le_antisymm hle hnew
    · exact absurd (h.tracked child hpos hold hnot) (by omega)
  waitable := h.waitable
  exited := fun child hmem => Nat.le_succ_of_le (h.exited child hmem)
  taken := fun child hmem => Nat.le_succ_of_le (h.taken child hmem)
  retries := fun child hmem => Nat.le_succ_of_le (h.retries child hmem)
  linked := fun _ => ⟨rfl, Nat.succ_pos _, rfl⟩
  leftover := fun _ child hmem => Nat.lt_succ_of_le (h.retries child hmem)
  respawns := fun _ hno => (by cases hno)
  dormant := fun hon _ hdormant => absurd hon (hoff hdormant)
  retried := fun hno => (by cases hno)

/-! ## Requests and events keep it -/

/-- The books of the requests, and the state of a channel there is, are of no account. -/
theorem Kept.of_books (h : Kept s) {channel : Option IOChannel}
    (hchannel : channel.isSome = s.channel.isSome) (pending : Dict ℕ ℕ) (nextTag requests : ℕ)
    (completions : List (ℕ × ManagementAnswer)) :
    Kept { s with channel, pending, nextTag, requests, completions } := by
  have hnone : channel = none → s.channel = none := by
    rintro rfl
    simpa using hchannel.symm
  exact
    { toChildren := h.toChildren.of_same rfl rfl rfl rfl rfl rfl
      linked := fun hsome => h.linked (hchannel ▸ hsome)
      leftover := fun hsome => h.leftover (hchannel ▸ hsome)
      respawns := fun hon hno => h.respawns hon (hnone hno)
      dormant := fun hon hsome => h.dormant hon (hchannel ▸ hsome)
      retried := fun hno => h.retried (hnone hno) }

theorem Kept.complete (h : Kept s) (request : ℕ) (answer : ManagementAnswer) :
    Kept (s.complete request answer) :=
  h.of_books rfl s.pending s.nextTag s.requests _

theorem Kept.handleLinkClosed (h : Kept s) (late : Bool) : Kept (s.handleLinkClosed late) :=
  (h.toChildren.handleLinkClosed late).1.kept

theorem Kept.scheduleRespawn (h : Kept s) : Kept s.scheduleRespawn :=
  { toChildren := h.toChildren.of_same rfl rfl rfl rfl rfl rfl
    linked := h.linked
    leftover := h.leftover
    respawns := fun _ _ _ => rfl
    dormant := h.dormant
    retried := h.retried }

/-- The helper that serves is spawned, or will be. -/
theorem Children.spawnOrRetry (h : Children s) (hnone : s.channel = none) (hne : s.childPID = 0)
    (spawns : Bool) : Kept (s.spawnOrRetry spawns) := by
  rw [RemoteSupervisor.spawnOrRetry]
  split_ifs
  · exact h.spawn hne (by simp)
  · exact Unlinked.kept
      ⟨h.of_same rfl rfl rfl rfl rfl rfl, hnone, fun hno => absurd hne hno, fun _ _ => rfl⟩

/-- The switch stands so, these were told to leave, and what the switch asks for is seen to. -/
theorem Kept.turned (h : Kept s) (enabled : Bool) (signalled : List ℕ)
    (hrespawns : enabled → s.channel = none → s.childPID = 0 → s.respawnScheduled = true)
    (hdormant : enabled → s.channel.isSome → s.childIsDormant →
      s.childPID ∈ signalled ∨ s.childPID ∈ s.exited) :
    Kept { s with isEnabled := enabled, signalled } :=
  { toChildren := h.toChildren.of_same rfl rfl rfl rfl rfl rfl
    linked := h.linked
    leftover := h.leftover
    respawns := hrespawns
    dormant := hdormant
    retried := h.retried }

theorem Kept.stop (h : Kept s) : Kept s.stop := by
  rw [RemoteSupervisor.stop]
  split_ifs
  · refine h.turned s.isEnabled (s.signalled ++ [s.childPID]) h.respawns ?_
    exact fun hon hsome hdormant => (h.dormant hon hsome hdormant).imp_left (List.mem_append_left _)
  · exact h

/-- The switch is turned on: a helper is brought up, or the dormant one told to make way for it. -/
theorem Kept.turnOn (h : Kept s) (enabled spawns : Bool) :
    Kept (let t := { s with isEnabled := enabled }
      if t.channel.isNone ∧ t.childPID = 0 then t.spawnOrRetry spawns
      else if t.childIsDormant then t.stop else t) := by
  dsimp only
  by_cases hnone : s.channel.isNone ∧ s.childPID = 0
  · rw [if_pos hnone]
    have hchildren : Children { s with isEnabled := enabled } :=
      h.toChildren.of_same rfl rfl rfl rfl rfl rfl
    exact hchildren.spawnOrRetry (Option.isNone_iff_eq_none.mp hnone.1) hnone.2 spawns
  rw [if_neg hnone]
  have hsome : s.channel = none → s.childPID ≠ 0 := fun hno hzero => hnone ⟨by simp [hno], hzero⟩
  by_cases hdormant : s.childIsDormant
  · rw [if_pos hdormant, RemoteSupervisor.stop]
    dsimp only
    split_ifs with hup
    · refine h.turned enabled (s.signalled ++ [s.childPID]) (fun _ hno hzero => ?_) fun _ _ _ => ?_
      · exact absurd hzero (hsome hno)
      · exact .inl (List.mem_append_right _ (List.mem_singleton_self _))
    · refine h.turned enabled s.signalled (fun _ hno hzero => absurd hzero (hsome hno))
        fun _ hchannel => ?_
      obtain ⟨hchild, hpos, -⟩ := h.linked hchannel
      exact absurd ⟨hchild ▸ hpos, hchannel⟩ hup
  · rw [if_neg hdormant]
    exact h.turned enabled s.signalled (fun _ hno hzero => absurd hzero (hsome hno))
      fun _ _ hno => absurd hno hdormant

theorem Kept.setEnabled (h : Kept s) (enabled saved spawns : Bool) :
    Kept (s.setEnabled enabled saved spawns) := by
  rw [RemoteSupervisor.setEnabled]
  cases enabled <;> cases saved
  · exact h.stop
  · exact Kept.stop (h.turned false s.signalled (by simp) (by simp))
  · exact h.turnOn s.isEnabled spawns
  · exact h.turnOn true spawns

theorem Kept.wrote (h : Kept s) (hsome : s.channel.isSome) (channel : IOChannel) (late : Bool) :
    Kept (s.wrote channel late) := by
  have hlinked : Kept { s with channel := some channel } :=
    h.of_books (by simp [hsome]) s.pending s.nextTag s.requests s.completions
  rw [RemoteSupervisor.wrote]
  split_ifs
  · exact hlinked.handleLinkClosed late
  · exact hlinked

theorem Kept.spawnDormant (h : Kept s) (spawns : Bool) : Kept (s.spawnDormant spawns) := by
  rw [RemoteSupervisor.spawnDormant]
  split_ifs with hoff
  · exact h.toChildren.spawn hoff.2.1 fun _ => hoff.2.2.1
  · exact h

theorem Kept.forwardOrCompose (h : Kept s) (request : ℕ) (message : XPCObject) (spawns : Bool)
    (writes : List SocketWrite) (late : Bool) :
    Kept (s.forwardOrCompose request message spawns writes late) := by
  have hup := h.spawnDormant spawns
  rw [RemoteSupervisor.forwardOrCompose]
  dsimp only
  generalize s.spawnDormant spawns = t at hup
  split
  · exact hup.complete _ _
  · rename_i channel hchannel
    have hasked :
        Kept { t with nextTag := t.nextTag + 1, pending := t.pending.insert t.nextTag request } :=
      hup.of_books rfl _ _ t.requests t.completions
    have hsent := hasked.wrote (by simp [hchannel])
      (channel.send .request 0 (UInt64.ofNat t.nextTag) (some message) writes).1 late
    split_ifs
    · exact hsent
    · exact Kept.complete (hsent.of_books rfl _ _ _ _) _ _

theorem Kept.handle (h : Kept s) (message : XPCObject) (saved spawns spawnsDormant : Bool)
    (writes : List SocketWrite) (late : Bool) :
    Kept (s.handle message saved spawns spawnsDormant writes late) := by
  have hasked : Kept { s with requests := s.requests + 1 } :=
    h.of_books rfl s.pending s.nextTag _ s.completions
  rw [RemoteSupervisor.handle]
  dsimp only
  split_ifs
  · exact (hasked.setEnabled _ _ _).forwardOrCompose _ _ _ _ _
  · exact (hasked.setEnabled _ _ _).complete _ _
  · exact hasked.forwardOrCompose _ _ _ _ _

theorem Kept.handleFrame (h : Kept s) (header : IOWire.Header) (payload : List UInt8) :
    Kept (s.handleFrame header payload) := by
  rw [RemoteSupervisor.handleFrame]
  split
  · split
    · exact h
    · exact Kept.complete (h.of_books rfl _ s.nextTag s.requests s.completions) _ _
  · exact h

theorem Kept.exits (h : Kept s) {child : ℕ} (hle : child ≤ s.spawned) :
    Kept { s with exited := s.exited ++ [child] } :=
  { child := h.child
    tracked := h.tracked
    waitable := fun other hmem => (h.waitable other hmem).imp_left (List.mem_append_left _)
    exited := fun other hmem => by
      rcases List.mem_append.mp hmem with hold | hnew
      · exact h.exited other hold
      · rw [List.mem_singleton.mp hnew]
        exact hle
    taken := h.taken
    retries := h.retries
    linked := h.linked
    leftover := h.leftover
    respawns := h.respawns
    dormant := fun hon hsome hdormant =>
      (h.dormant hon hsome hdormant).imp_right (List.mem_append_left _)
    retried := h.retried }

theorem Kept.becomeWaitable (h : Kept s) (child : ℕ) : Kept (s.becomeWaitable child) := by
  have hchildren := h.toChildren.becomeWaitable child
  rw [RemoteSupervisor.becomeWaitable] at hchildren ⊢
  split_ifs at hchildren ⊢
  · exact
      { toChildren := hchildren
        linked := h.linked
        leftover := h.leftover
        respawns := h.respawns
        dormant := h.dormant
        retried := h.retried }
  · exact h

/-- A retry fires: it is not there any more. -/
theorem Kept.fired (h : Kept s) (child : ℕ) :
    Supervised { s with retries := s.retries.erase child } :=
  { child := h.child
    tracked := h.tracked
    waitable := h.waitable
    exited := h.exited
    taken := h.taken
    retries := fun other hmem => h.retries other (List.mem_of_mem_erase hmem)
    linked := h.linked
    leftover := fun hsome other hmem => h.leftover hsome other (List.mem_of_mem_erase hmem)
    respawns := h.respawns
    dormant := h.dormant }

theorem Kept.respawn (h : Kept s) (spawns : Bool) : Kept (s.respawn spawns) := by
  have hchildren : Children { s with respawnScheduled := false } :=
    h.toChildren.of_same rfl rfl rfl rfl rfl rfl
  rw [RemoteSupervisor.respawn]
  dsimp only
  split_ifs with hon
  · exact hchildren.spawnOrRetry (Option.isNone_iff_eq_none.mp hon.2.1) hon.2.2 spawns
  · exact
      { toChildren := hchildren
        linked := h.linked
        leftover := h.leftover
        respawns := fun henabled hnone hzero =>
          absurd ⟨henabled, Option.isNone_iff_eq_none.mpr hnone, hzero⟩ hon
        dormant := h.dormant
        retried := h.retried }

theorem Kept.step (h : Kept s) (event : Event) : Kept (s.step event) := by
  cases event with
  | handle message saved spawns spawnsDormant writes late =>
    exact h.handle message saved spawns spawnsDormant writes late
  | frame header payload =>
    rw [RemoteSupervisor.step]
    split_ifs
    · exact h.handleFrame header payload
    · exact h
  | writable writes late =>
    rw [RemoteSupervisor.step]
    split
    · exact h
    · rename_i channel hchannel
      split_ifs
      · exact h.wrote (by simp [hchannel]) _ late
      · exact h
  | linkCloses late =>
    rw [RemoteSupervisor.step]
    split_ifs
    · exact h.handleLinkClosed late
    · exact h
  | exitNote late =>
    rw [RemoteSupervisor.step]
    split_ifs
    · exact h.toSupervised.reap late
    · exact h
  | retry child late =>
    rw [RemoteSupervisor.step]
    split_ifs
    · exact (h.fired child).reap late
    · exact h
  | respawn spawns =>
    rw [RemoteSupervisor.step]
    split_ifs
    · exact h.respawn spawns
    · exact h
  | exits child =>
    rw [RemoteSupervisor.step]
    split_ifs with hchild
    · exact h.exits hchild.2.1
    · exact h
  | becomesWaitable child => exact h.becomeWaitable child

theorem kept_start (enabled spawns : Bool) : Kept (start enabled spawns) := by
  have hchildren : ∀ on : Bool, Children { isEnabled := on } := fun on =>
    ⟨fun hno => absurd rfl hno, fun child hpos hle => absurd hpos (by simpa using hle), by
      simp, by simp,
      by simp, by simp⟩
  cases enabled with
  | true => exact (hchildren true).spawnOrRetry rfl rfl spawns
  | false =>
    exact Unlinked.kept ⟨hchildren false, rfl, fun hno => absurd rfl hno, fun hno => (by cases hno)⟩

/-! ## Every request is answered once -/

/-- The requests that wait on the channel. -/
def waiting (s : RemoteSupervisor) : List ℕ := s.pending.entries.map Prod.snd

/-- The requests that were answered. -/
def answered (s : RemoteSupervisor) : List ℕ := s.completions.map Prod.fst

/-- **Every request is in one place**, but for those in hand: it was answered, or it waits on a
channel that is open. -/
structure Answered (s : RemoteSupervisor) (hand : List ℕ) : Prop where
  isOpen : ∀ channel, s.channel = some channel → channel.isClosed = false
  linkless : s.channel = none → s.pending = ∅
  tag_lt : ∀ tag request, s.pending.get? tag = some request → tag < s.nextTag
  once : ∀ request, s.answered.count request + s.waiting.count request + hand.count request =
    if request < s.requests then 1 else 0

variable {hand : List ℕ}

theorem Answered.of_same (h : Answered s hand) (hchannel : t.channel = s.channel)
    (hpending : t.pending = s.pending) (htag : t.nextTag = s.nextTag)
    (hrequests : t.requests = s.requests) (hcompletions : t.completions = s.completions) :
    Answered t hand := by
  refine ⟨by rw [hchannel]; exact h.isOpen, by rw [hchannel, hpending]; exact h.linkless,
    by rw [hpending, htag]; exact h.tag_lt, fun request => ?_⟩
  rw [answered, waiting, hcompletions, hpending, hrequests]
  exact h.once request

/-- **The link is lost**: what waited is answered. -/
theorem Answered.handleLinkClosed (h : Answered s hand) (late : Bool) :
    Answered (s.handleLinkClosed late) hand := by
  obtain ⟨_, _, _, _, _, heq⟩ := handleLinkClosed_eq late s
  rw [heq]
  refine ⟨fun _ hno => (by cases hno), fun _ => rfl, fun _ _ hno => (by cases hno),
    fun request => ?_⟩
  have honce := h.once request
  rw [answered, waiting] at honce ⊢
  rw [List.map_append, List.map_map, List.count_append]
  exact honce

theorem Answered.closeChannel (h : Answered s hand) (late : Bool) :
    Answered (s.closeChannel late) hand := by
  cases hchannel : s.channel with
  | none => rwa [closeChannel_of_none late hchannel]
  | some channel =>
    rw [closeChannel_of_isSome late (by simp [hchannel])]
    apply Answered.handleLinkClosed
    exact h.of_same rfl rfl rfl rfl rfl

theorem Answered.reap (h : Answered s hand) (late : Bool) : Answered (s.reap late) hand := by
  rw [RemoteSupervisor.reap]
  by_cases hne : s.childPID = 0
  · rwa [reapWith_of_none _ hne]
  by_cases hmem : s.childPID ∈ s.waitable
  · rw [reapWith_of_mem _ hne hmem]
    have hclosed := Answered.closeChannel (s :=
      { s with
        waitable := s.waitable.filter fun child => child ≠ s.childPID
        reaped := s.reaped ++ [s.childPID]
        childPID := 0 }) (h.of_same rfl rfl rfl rfl rfl) late
    dsimp only
    split_ifs
    · exact hclosed.of_same rfl rfl rfl rfl rfl
    · exact hclosed
  · rw [reapWith_of_notMem _ hne hmem]
    exact (h.closeChannel late).of_same rfl rfl rfl rfl rfl

/-- A request is answered. -/
theorem Answered.complete {request : ℕ} (h : Answered s (request :: hand))
    (answer : ManagementAnswer) :
    Answered (s.complete request answer) hand := by
  refine ⟨h.isOpen, h.linkless, h.tag_lt, fun other => ?_⟩
  have honce := h.once other
  rw [answered, RemoteSupervisor.complete, List.map_append, List.count_append]
  rw [answered, List.count_cons] at honce
  rw [waiting] at honce ⊢
  simp only [List.map_cons, List.map_nil, List.count_cons, List.count_nil]
  omega

/-- A request is asked: it is in hand. -/
theorem Answered.asked (h : Answered s []) :
    Answered { s with requests := s.requests + 1 } [s.requests] := by
  refine ⟨h.isOpen, h.linkless, h.tag_lt, fun request => ?_⟩
  have honce := h.once request
  rw [answered, waiting] at honce ⊢
  dsimp only at honce ⊢
  rw [List.count_nil] at honce
  rw [List.count_singleton]
  rcases Nat.lt_trichotomy request s.requests with hlt | rfl | hgt
  · rw [if_pos hlt] at honce
    rw [if_neg (by simpa using hlt.ne'), if_pos (by omega)]
    omega
  · rw [if_neg (lt_irrefl _)] at honce
    rw [if_pos (by simp), if_pos (by omega)]
    omega
  · rw [if_neg (by omega)] at honce
    rw [if_neg (by simpa using hgt.ne), if_neg (by omega)]
    omega

/-- The request in hand waits on the channel, under a tag of its own. -/
theorem Answered.waits {request : ℕ} (h : Answered s [request]) (hsome : s.channel.isSome) :
    Answered { s with nextTag := s.nextTag + 1, pending := s.pending.insert s.nextTag request }
      [] := by
  have hfresh : s.pending.get? s.nextTag = none := by
    by_contra hsome
    obtain ⟨other, hother⟩ := Option.ne_none_iff_exists'.mp hsome
    exact lt_irrefl _ (h.tag_lt _ other hother)
  refine ⟨h.isOpen, fun hno => absurd hno (Option.isSome_iff_ne_none.mp hsome), ?_, fun other => ?_⟩
  · intro tag other hget
    rw [Dict.get?_insert] at hget
    split_ifs at hget with hkey
    · rw [← hkey]
      exact Nat.lt_succ_self _
    · exact Nat.lt_succ_of_lt (h.tag_lt tag other hget)
  · have honce := h.once other
    have hperm : ((s.pending.insert s.nextTag request).entries.map Prod.snd).count other =
        (request :: s.pending.entries.map Prod.snd).count other := by
      have hentries := Dict.entries_insert_perm s.pending s.nextTag request
      rw [Dict.erase_of_none hfresh] at hentries
      exact (hentries.map Prod.snd).count_eq other
    rw [answered, waiting] at honce ⊢
    dsimp only at honce ⊢
    rw [hperm, List.count_cons, List.count_nil]
    rw [List.count_cons, List.count_nil] at honce
    omega

/-- The link goes on, or is lost. -/
theorem Answered.wrote (h : Answered s hand) (channel : IOChannel) (late : Bool) :
    Answered (s.wrote channel late) hand := by
  obtain ⟨_, _, _, _, _, heq⟩ := handleLinkClosed_eq late { s with channel := some channel }
  obtain ⟨_, _, _, _, _, heq'⟩ := handleLinkClosed_eq late s
  rw [RemoteSupervisor.wrote]
  split_ifs with hclosed
  · refine (h.handleLinkClosed late).of_same ?_ ?_ ?_ ?_ ?_ <;> rw [heq, heq']
  · refine ⟨fun other hother => ?_, fun hno => (by cases hno), h.tag_lt, h.once⟩
    rw [← Option.some_inj.mp hother]
    simpa using hclosed

/-- A new child's channel carries nothing yet. -/
theorem Answered.spawn (h : Answered s hand) (hnone : s.channel = none) (dormant : Bool) :
    Answered (s.spawn dormant) hand := by
  refine ⟨fun channel hchannel => ?_, fun hno => (by cases hno), fun tag request hget => ?_, h.once⟩
  · rw [← Option.some_inj.mp hchannel]
  · have hempty : s.pending.get? tag = some request := hget
    rw [h.linkless hnone] at hempty
    cases hempty

theorem Answered.spawnOrRetry (h : Answered s hand) (hnone : s.channel = none) (spawns : Bool) :
    Answered (s.spawnOrRetry spawns) hand := by
  rw [RemoteSupervisor.spawnOrRetry]
  split_ifs
  · exact h.spawn hnone false
  · exact h.of_same rfl rfl rfl rfl rfl

theorem Answered.stop (h : Answered s hand) : Answered s.stop hand := by
  rw [RemoteSupervisor.stop]
  split_ifs
  · exact h.of_same rfl rfl rfl rfl rfl
  · exact h

theorem Answered.setEnabled (h : Answered s hand) (enabled saved spawns : Bool) :
    Answered (s.setEnabled enabled saved spawns) hand := by
  have hturned : Answered (if saved then { s with isEnabled := enabled } else s) hand := by
    split_ifs
    · exact h.of_same rfl rfl rfl rfl rfl
    · exact h
  rw [RemoteSupervisor.setEnabled]
  generalize (if saved then { s with isEnabled := enabled } else s) = t at hturned
  split_ifs with _ hnone
  · exact hturned.spawnOrRetry (Option.isNone_iff_eq_none.mp hnone.1) spawns
  · exact hturned.stop
  · exact hturned
  · exact hturned.stop

theorem Answered.spawnDormant (h : Answered s hand) (spawns : Bool) :
    Answered (s.spawnDormant spawns) hand := by
  rw [RemoteSupervisor.spawnDormant]
  split_ifs with hoff
  · exact h.spawn (Option.isNone_iff_eq_none.mp hoff.1) true
  · exact h

/-- **A request in hand is answered, or waits.** -/
theorem Answered.forwardOrCompose {request : ℕ} (h : Answered s [request]) (message : XPCObject)
    (spawns : Bool) (writes : List SocketWrite) (late : Bool) :
    Answered (s.forwardOrCompose request message spawns writes late) [] := by
  have hup := h.spawnDormant spawns
  rw [RemoteSupervisor.forwardOrCompose]
  dsimp only
  generalize s.spawnDormant spawns = t at hup
  split
  · exact hup.complete _
  · rename_i channel hchannel
    rcases channel.send_cases .request 0 (UInt64.ofNat t.nextTag) (some message) writes with
      hno | ⟨channel', hyes, -⟩
    · -- refused: the tag is taken back
      have hfresh : t.pending.get? t.nextTag = none := by
        by_contra hsome
        obtain ⟨other, hother⟩ := Option.ne_none_iff_exists'.mp hsome
        exact lt_irrefl _ (hup.tag_lt _ other hother)
      have hopen := hup.isOpen channel hchannel
      have hnot : ¬ channel.isClosed = true := by simp [hopen]
      rw [hno, RemoteSupervisor.wrote]
      dsimp only
      rw [if_neg hnot, if_neg Bool.false_ne_true, Dict.erase_insert, Dict.erase_of_none hfresh]
      apply Answered.complete
      refine ⟨fun other hother => ?_, fun hno => (by cases hno), fun tag other hget => ?_, hup.once⟩
      · rw [← Option.some_inj.mp hother]
        exact hopen
      · exact Nat.lt_succ_of_lt (hup.tag_lt tag other hget)
    · rw [hyes]
      dsimp only
      rw [if_pos rfl]
      exact (hup.waits (by simp [hchannel])).wrote channel' late

theorem Answered.handle (h : Answered s []) (message : XPCObject)
    (saved spawns spawnsDormant : Bool) (writes : List SocketWrite) (late : Bool) :
    Answered (s.handle message saved spawns spawnsDormant writes late) [] := by
  have hasked := h.asked
  rw [RemoteSupervisor.handle]
  dsimp only
  split_ifs
  · exact (hasked.setEnabled _ _ _).forwardOrCompose _ _ _ _
  · exact (hasked.setEnabled _ _ _).complete _
  · exact hasked.forwardOrCompose _ _ _ _

/-- A reply takes its request off the channel. -/
theorem Answered.handleFrame (h : Answered s []) (hsome : s.channel.isSome) (header : IOWire.Header)
    (payload : List UInt8) : Answered (s.handleFrame header payload) [] := by
  rw [RemoteSupervisor.handleFrame]
  split
  · split
    · exact h
    · rename_i request hget
      apply Answered.complete
      refine ⟨h.isOpen, fun hno => absurd hno (Option.isSome_iff_ne_none.mp hsome), ?_,
        fun other => ?_⟩
      · intro tag other hother
        rw [Dict.get?_erase] at hother
        split_ifs at hother
        exact h.tag_lt tag other hother
      · have honce := h.once other
        have hperm := ((Dict.entries_perm hget).map Prod.snd).count_eq other
        rw [answered, waiting] at honce ⊢
        rw [hperm, List.map_cons, List.count_cons, List.count_nil] at honce
        rw [List.count_cons, List.count_nil]
        dsimp only at honce ⊢
        omega
  · exact h

theorem Answered.step (h : Answered s []) (event : Event) : Answered (s.step event) [] := by
  cases event with
  | handle message saved spawns spawnsDormant writes late =>
    exact h.handle message saved spawns spawnsDormant writes late
  | frame header payload =>
    rw [RemoteSupervisor.step]
    split_ifs with hsome
    · exact h.handleFrame hsome header payload
    · exact h
  | writable writes late =>
    rw [RemoteSupervisor.step]
    split
    · exact h
    · split_ifs
      · exact h.wrote _ late
      · exact h
  | linkCloses late =>
    rw [RemoteSupervisor.step]
    split_ifs
    · exact h.handleLinkClosed late
    · exact h
  | exitNote late =>
    rw [RemoteSupervisor.step]
    split_ifs
    · exact h.reap late
    · exact h
  | retry child late =>
    rw [RemoteSupervisor.step]
    split_ifs
    · apply Answered.reap
      exact h.of_same rfl rfl rfl rfl rfl
    · exact h
  | respawn spawns =>
    rw [RemoteSupervisor.step, RemoteSupervisor.respawn]
    dsimp only
    have hfired : Answered { s with respawnScheduled := false } [] := h.of_same rfl rfl rfl rfl rfl
    split_ifs with _ hon
    · exact hfired.spawnOrRetry (Option.isNone_iff_eq_none.mp hon.2.1) spawns
    · exact hfired
    · exact h
  | exits child =>
    rw [RemoteSupervisor.step]
    split_ifs
    · exact h.of_same rfl rfl rfl rfl rfl
    · exact h
  | becomesWaitable child =>
    rw [RemoteSupervisor.step, RemoteSupervisor.becomeWaitable]
    split_ifs
    · exact h.of_same rfl rfl rfl rfl rfl
    · exact h

theorem answered_start (enabled spawns : Bool) : Answered (start enabled spawns) [] := by
  have hempty : ∀ on : Bool, Answered { isEnabled := on } [] := fun on =>
    ⟨fun _ hno => (by cases hno), fun _ => rfl, fun _ _ hno => (by cases hno), fun _ => rfl⟩
  cases enabled with
  | true => exact (hempty true).spawnOrRetry rfl spawns
  | false => exact hempty false

/-! ## Who is cut -/

/-- The last child runs, and its link is up. -/
def IsUp (s : RemoteSupervisor) : Prop := s.channel.isSome ∧ s.spawned ∉ s.exited

instance (s : RemoteSupervisor) : Decidable s.IsUp := inferInstanceAs (Decidable (_ ∧ _))

theorem handleLinkClosed_cut (late : Bool) (s : RemoteSupervisor) :
    (s.handleLinkClosed late).cut = s.cut := by
  obtain ⟨_, _, _, _, _, heq⟩ := handleLinkClosed_eq late s
  rw [heq]

theorem closeChannel_cut (late : Bool) (s : RemoteSupervisor) :
    (s.closeChannel late).cut = if s.IsUp then s.cut ++ [s.spawned] else s.cut := by
  cases hchannel : s.channel with
  | none =>
    have hdown : ¬ s.IsUp := fun hup => absurd hchannel (Option.isSome_iff_ne_none.mp hup.1)
    rw [closeChannel_of_none late hchannel, if_neg hdown]
  | some channel =>
    have hsome : s.channel.isSome := by simp [hchannel]
    rw [closeChannel_of_isSome late hsome, handleLinkClosed_cut]
    dsimp only
    by_cases hexit : s.spawned ∈ s.exited
    · have hdown : ¬ s.IsUp := fun hup => hup.2 hexit
      rw [if_pos hexit, if_neg hdown]
    · have hup : s.IsUp := ⟨hsome, hexit⟩
      rw [if_neg hexit, if_pos hup]

/-- **A reap cuts a child that is up**, and no other. -/
theorem Supervised.reap_cut (h : Supervised s) (late : Bool) :
    (s.reap late).cut = if s.IsUp then s.cut ++ [s.spawned] else s.cut := by
  rw [RemoteSupervisor.reap]
  by_cases hne : s.childPID = 0
  · have hdown : ¬ s.IsUp := fun hup => by
      obtain ⟨hchild, hpos, -⟩ := h.linked hup.1
      omega
    rw [reapWith_of_none _ hne, if_neg hdown]
  by_cases hmem : s.childPID ∈ s.waitable
  · -- it has exited
    have hexit : s.spawned ∈ s.exited := by
      rw [← (h.child hne).1]
      exact (h.waitable _ hmem).1
    have hdown : ¬ s.IsUp := fun hup => hup.2 hexit
    have hclosed : (closeChannel late
        { s with
          waitable := s.waitable.filter fun child => child ≠ s.childPID
          reaped := s.reaped ++ [s.childPID]
          childPID := 0 }).cut = s.cut :=
      (closeChannel_cut late _).trans (if_neg hdown)
    rw [if_neg hdown, reapWith_of_mem _ hne hmem]
    dsimp only
    split_ifs
    · exact hclosed
    · exact hclosed
  · rw [reapWith_of_notMem _ hne hmem]
    exact closeChannel_cut late s

theorem wrote_cut (s : RemoteSupervisor) (channel : IOChannel) (late : Bool) :
    (s.wrote channel late).cut = s.cut := by
  rw [wrote]
  split_ifs
  · exact handleLinkClosed_cut late _
  · rfl

theorem setEnabled_cut (s : RemoteSupervisor) (enabled saved spawns : Bool) :
    (s.setEnabled enabled saved spawns).cut = s.cut := by
  cases enabled <;> cases saved <;> cases spawns <;>
    simp only [setEnabled, spawnOrRetry, spawn, scheduleRespawn, stop] <;> split_ifs <;> rfl

theorem forwardOrCompose_cut (s : RemoteSupervisor) (request : ℕ) (message : XPCObject)
    (spawns : Bool) (writes : List SocketWrite) (late : Bool) :
    (s.forwardOrCompose request message spawns writes late).cut = s.cut := by
  have hup : (s.spawnDormant spawns).cut = s.cut := by
    rw [spawnDormant]
    split_ifs <;> rfl
  rw [forwardOrCompose, ← hup]
  dsimp only
  generalize s.spawnDormant spawns = t
  split
  · rfl
  · split_ifs
    · exact wrote_cut _ _ _
    · exact wrote_cut _ _ _

theorem handle_cut (s : RemoteSupervisor) (message : XPCObject) (saved spawns spawnsDormant : Bool)
    (writes : List SocketWrite) (late : Bool) :
    (s.handle message saved spawns spawnsDormant writes late).cut = s.cut := by
  rw [handle]
  dsimp only
  split_ifs
  · rw [forwardOrCompose_cut, setEnabled_cut]
  · exact setEnabled_cut _ _ _ _
  · exact forwardOrCompose_cut _ _ _ _ _ _

/-- A reap retry that fires while a child is up, which it was not scheduled for. -/
def CutsBy (s : RemoteSupervisor) : Event → Prop
  | .retry child _ => child ∈ s.retries ∧ child ≠ s.childPID ∧ s.IsUp
  | _ => False

instance (s : RemoteSupervisor) : ∀ event, Decidable (s.CutsBy event)
  | .retry _ _ => inferInstanceAs (Decidable (_ ∧ _))
  | .handle _ _ _ _ _ _ | .frame _ _ | .writable _ _ | .linkCloses _ | .exitNote _ | .respawn _
  | .exits _ | .becomesWaitable _ => instDecidableFalse

/-- **Only a retry left over from an earlier child cuts one.** -/
theorem Kept.step_cut (h : Kept s) (event : Event) :
    (s.step event).cut = if s.CutsBy event then s.cut ++ [s.spawned] else s.cut := by
  cases event with
  | handle message saved spawns spawnsDormant writes late => exact handle_cut _ _ _ _ _ _ _
  | frame header payload =>
    have hframe : (s.handleFrame header payload).cut = s.cut := by
      rw [RemoteSupervisor.handleFrame]
      split
      · split <;> rfl
      · rfl
    rw [if_neg (show ¬ CutsBy s (.frame header payload) from id), RemoteSupervisor.step]
    split_ifs
    · exact hframe
    · rfl
  | writable writes late =>
    rw [if_neg (show ¬ CutsBy s (.writable writes late) from id), RemoteSupervisor.step]
    split
    · rfl
    · split_ifs
      · exact wrote_cut _ _ _
      · rfl
  | linkCloses late =>
    rw [if_neg (show ¬ CutsBy s (.linkCloses late) from id), RemoteSupervisor.step]
    split_ifs
    · exact handleLinkClosed_cut late s
    · rfl
  | exitNote late =>
    rw [if_neg (show ¬ CutsBy s (.exitNote late) from id), RemoteSupervisor.step]
    split_ifs with hnote
    · have hdown : ¬ s.IsUp := fun hup => hup.2 hnote.2
      rw [h.toSupervised.reap_cut, if_neg hdown]
    · rfl
  | retry child late =>
    rw [RemoteSupervisor.step]
    by_cases hmem : child ∈ s.retries
    · rw [if_pos hmem, (h.fired child).reap_cut]
      by_cases hup : s.IsUp
      · have hother : child ≠ s.childPID := by
          have hlt := h.leftover hup.1 child hmem
          have hlinked := (h.linked hup.1).1
          omega
        rw [if_pos (show CutsBy s (.retry child late) from ⟨hmem, hother, hup⟩)]
        exact if_pos hup
      · rw [if_neg fun hcuts : CutsBy s (.retry child late) => hup hcuts.2.2]
        exact if_neg hup
    · rw [if_neg hmem, if_neg fun hcuts : CutsBy s (.retry child late) => hmem hcuts.1]
  | respawn spawns =>
    rw [if_neg (show ¬ CutsBy s (.respawn spawns) from id), RemoteSupervisor.step]
    cases spawns <;> simp only [RemoteSupervisor.respawn, spawnOrRetry, spawn] <;> split_ifs <;> rfl
  | exits child =>
    rw [if_neg (show ¬ CutsBy s (.exits child) from id), RemoteSupervisor.step]
    split_ifs <;> rfl
  | becomesWaitable child =>
    rw [if_neg (show ¬ CutsBy s (.becomesWaitable child) from id), RemoteSupervisor.step,
      RemoteSupervisor.becomeWaitable]
    split_ifs <;> rfl

/-! ## What is pending leads to a spawn -/

/-- A helper serves: it is up, and not the dormant one. -/
def IsServing (s : RemoteSupervisor) : Prop := s.IsUp ∧ ¬ s.childIsDormant

/-- The child has exited or was told to, and its exit note is awaited. -/
def ExitPending (s : RemoteSupervisor) : Prop :=
  s.hasExitSource ∧ s.channel.isSome ∧ (s.childPID ∈ s.signalled ∨ s.childPID ∈ s.exited)

/-- The child has no channel any more, and a retry asks for it. -/
def RetryPending (s : RemoteSupervisor) : Prop :=
  s.channel = none ∧ s.childPID ≠ 0 ∧ s.childPID ∈ s.retries

/-- There is no child, and a respawn is scheduled. -/
def RespawnPending (s : RemoteSupervisor) : Prop :=
  s.channel = none ∧ s.childPID = 0 ∧ s.respawnScheduled

/-- What children and timers do by themselves. -/
def Event.IsOwn : Event → Prop
  | .exitNote _ | .retry _ _ | .respawn _ | .exits _ | .becomesWaitable _ => True
  | _ => False

/-- Children and timers left to themselves bring up a helper that serves, the next one spawned. -/
def LeadsToSpawn (s : RemoteSupervisor) : Prop :=
  ∃ events : List Event, (∀ event ∈ events, event.IsOwn) ∧
    (after step s events).IsServing ∧ (after step s events).spawned = s.spawned + 1

/-- **While the switch is on and nothing serves, something is pending.** -/
theorem Kept.pending (h : Kept s) (hon : s.isEnabled) (hdown : ¬ s.IsServing) :
    s.ExitPending ∨ s.RetryPending ∨ s.RespawnPending := by
  cases hchannel : s.channel with
  | none =>
    refine .inr ?_
    by_cases hne : s.childPID = 0
    · exact .inr ⟨hchannel, hne, h.respawns hon hchannel hne⟩
    · exact .inl ⟨hchannel, hne, h.retried hchannel hne⟩
  | some channel =>
    have hsome : s.channel.isSome := by simp [hchannel]
    obtain ⟨hchild, hpos, hsource⟩ := h.linked hsome
    refine .inl ⟨hsource, hsome, ?_⟩
    by_cases hexit : s.spawned ∈ s.exited
    · exact .inr (hchild ▸ hexit)
    · refine h.dormant hon hsome ?_
      by_contra hdormant
      exact hdown ⟨⟨hsome, hexit⟩, hdormant⟩

theorem closeChannel_isEnabled (late : Bool) (s : RemoteSupervisor) :
    (s.closeChannel late).isEnabled = s.isEnabled := by
  cases hchannel : s.channel with
  | none => rw [closeChannel_of_none late hchannel]
  | some channel =>
    rw [closeChannel_of_isSome late (by simp [hchannel])]
    obtain ⟨_, _, _, _, _, heq⟩ := handleLinkClosed_eq late
      { s with cut := if s.spawned ∈ s.exited then s.cut else s.cut ++ [s.spawned] }
    rw [heq]

/-- A reap that finds the child waitable takes it. -/
theorem Children.reap_takes (h : Children s) (hne : s.childPID ≠ 0) (hmem : s.childPID ∈ s.waitable)
    (late : Bool) :
    (s.reap late).childPID = 0 ∧ (s.reap late).channel = none ∧ (s.reap late).spawned = s.spawned ∧
      (s.reap late).isEnabled = s.isEnabled := by
  obtain ⟨-, hnone, hspawned, hle, -⟩ := h.reaping.closeChannel late
  have hon := closeChannel_isEnabled late
    { s with
      waitable := s.waitable.filter fun child => child ≠ s.childPID
      reaped := s.reaped ++ [s.childPID]
      childPID := 0 }
  rw [RemoteSupervisor.reap, reapWith_of_mem _ hne hmem]
  dsimp only
  split_ifs
  · exact ⟨Nat.le_zero.mp hle, hnone, hspawned, hon⟩
  · exact ⟨Nat.le_zero.mp hle, hnone, hspawned, hon⟩

/-- With no child left, the respawn brings one up. -/
theorem Kept.respawn_serves (h : Kept s) (hon : s.isEnabled) (hnone : s.channel = none)
    (hzero : s.childPID = 0) :
    (s.step (.respawn true)).IsServing ∧ (s.step (.respawn true)).spawned = s.spawned + 1 := by
  have hscheduled := h.respawns hon hnone hzero
  have heq : s.step (.respawn true) =
      ({ s with respawnScheduled := false } : RemoteSupervisor).spawn false := by
    rw [RemoteSupervisor.step, if_pos hscheduled, RemoteSupervisor.respawn]
    exact if_pos ⟨hon, by simp [hnone], hzero⟩
  rw [heq]
  refine ⟨⟨⟨rfl, fun hexit => ?_⟩, Bool.false_ne_true⟩, rfl⟩
  exact absurd (h.exited _ hexit) (Nat.not_succ_le_self _)

/-- The child exits, if it has not. -/
theorem step_exits_eq (hpos : 0 < s.childPID) (hle : s.childPID ≤ s.spawned) :
    ∃ exited, s.step (.exits s.childPID) = { s with exited } ∧ s.childPID ∈ exited := by
  rw [step]
  split_ifs with hchild
  · exact ⟨_, rfl, List.mem_append_right _ (List.mem_singleton_self _)⟩
  · refine ⟨s.exited, rfl, ?_⟩
    by_contra hnot
    exact hchild ⟨hpos, hle, hnot⟩

/-- An exited child becomes waitable, if it is not. -/
theorem step_becomesWaitable_eq (hexit : s.childPID ∈ s.exited) (hnot : s.childPID ∉ s.reaped) :
    ∃ waitable, s.step (.becomesWaitable s.childPID) = { s with waitable } ∧
      s.childPID ∈ waitable := by
  rw [step, becomeWaitable]
  split_ifs with hchild
  · exact ⟨_, rfl, List.mem_append_right _ (List.mem_singleton_self _)⟩
  · refine ⟨s.waitable, rfl, ?_⟩
    by_contra hno
    exact hchild ⟨hexit, hno, hnot⟩

/-- A child that is waitable is taken, by its exit note or by its retry. -/
theorem Kept.takes (h : Kept s) (hne : s.childPID ≠ 0) (hexit : s.childPID ∈ s.exited)
    (hmem : s.childPID ∈ s.waitable) :
    ∃ event : Event, event.IsOwn ∧ (s.step event).childPID = 0 ∧ (s.step event).channel = none ∧
      (s.step event).spawned = s.spawned ∧ (s.step event).isEnabled = s.isEnabled := by
  cases hchannel : s.channel with
  | none =>
    refine ⟨.retry s.childPID false, trivial, ?_⟩
    rw [RemoteSupervisor.step, if_pos (h.retried hchannel hne)]
    exact (h.fired s.childPID).toChildren.reap_takes hne hmem false
  | some channel =>
    obtain ⟨hchild, -, hsource⟩ := h.linked (by simp [hchannel])
    refine ⟨.exitNote false, trivial, ?_⟩
    rw [RemoteSupervisor.step, if_pos ⟨hsource, hchild ▸ hexit⟩]
    exact h.toChildren.reap_takes hne hmem false

/-- **What is pending leads to a spawn**: the child exits and is taken, and the respawn goes
ahead. -/
theorem Kept.leadsToSpawn (h : Kept s) (hon : s.isEnabled) : s.LeadsToSpawn := by
  by_cases hne : s.childPID = 0
  · have hnone : s.channel = none := by
      by_contra hsome
      obtain ⟨hchild, hpos, -⟩ := h.linked (Option.isSome_iff_ne_none.mpr hsome)
      omega
    exact ⟨[.respawn true], by simp [Event.IsOwn], h.respawn_serves hon hnone hne⟩
  obtain ⟨hchild, hnot⟩ := h.child hne
  have hdead := (h.step (.exits s.childPID)).step (.becomesWaitable s.childPID)
  obtain ⟨exited, hexits, hexit⟩ := step_exits_eq (Nat.pos_of_ne_zero hne) hchild.le
  obtain ⟨waitable, hwaits, hmem⟩ := step_becomesWaitable_eq (s := { s with exited }) hexit hnot
  rw [hexits, hwaits] at hdead
  obtain ⟨event, hown, hzero, hnone, hspawned, henabled⟩ := hdead.takes hne hexit hmem
  have hserves := (hdead.step event).respawn_serves (henabled.trans hon) hnone hzero
  rw [hspawned] at hserves
  refine ⟨[.exits s.childPID, .becomesWaitable s.childPID, event, .respawn true], ?_, ?_⟩
  · simp only [List.forall_mem_cons]
    exact ⟨trivial, trivial, hown, trivial, List.forall_mem_nil _⟩
  · rw [after_cons, after_cons, hexits, hwaits]
    exact hserves

/-! ## Tags

The source counts tags in 64 bits and lets them come round; here they are natural numbers.  In a run
of fewer than `2 ^ 64` steps the two are the same. -/

@[simp] theorem nextTag_handleLinkClosed (late : Bool) :
    (s.handleLinkClosed late).nextTag = s.nextTag := by
  obtain ⟨_, _, _, _, _, heq⟩ := handleLinkClosed_eq late s
  rw [heq]

@[simp] theorem nextTag_closeChannel (late : Bool) : (closeChannel late s).nextTag = s.nextTag := by
  cases hchannel : s.channel with
  | none => rw [closeChannel_of_none late hchannel]
  | some channel =>
    rw [closeChannel_of_isSome late (by simp [hchannel]), nextTag_handleLinkClosed]

@[simp] theorem nextTag_reap (late : Bool) : (s.reap late).nextTag = s.nextTag := by
  rw [RemoteSupervisor.reap]
  by_cases hne : s.childPID = 0
  · rw [reapWith_of_none _ hne]
  by_cases hmem : s.childPID ∈ s.waitable
  · rw [reapWith_of_mem _ hne hmem]
    dsimp only
    split_ifs
    · exact nextTag_closeChannel late
    · exact nextTag_closeChannel late
  · rw [reapWith_of_notMem _ hne hmem]
    exact nextTag_closeChannel late

@[simp] theorem nextTag_spawnOrRetry (spawns : Bool) :
    (s.spawnOrRetry spawns).nextTag = s.nextTag := by
  cases spawns <;> rfl

@[simp] theorem nextTag_stop : s.stop.nextTag = s.nextTag := by
  rw [stop]
  split_ifs <;> rfl

@[simp] theorem nextTag_setEnabled (enabled saved spawns : Bool) :
    (s.setEnabled enabled saved spawns).nextTag = s.nextTag := by
  rw [setEnabled]
  split_ifs <;> simp

@[simp] theorem nextTag_wrote (channel : IOChannel) (late : Bool) :
    (s.wrote channel late).nextTag = s.nextTag := by
  rw [wrote]
  split_ifs
  · exact nextTag_handleLinkClosed late
  · rfl

@[simp] theorem nextTag_spawnDormant (spawns : Bool) :
    (s.spawnDormant spawns).nextTag = s.nextTag := by
  rw [spawnDormant]
  split_ifs <;> rfl

@[simp] theorem nextTag_complete (request : ℕ) (answer : ManagementAnswer) :
    (s.complete request answer).nextTag = s.nextTag := rfl

theorem nextTag_forwardOrCompose_le (request : ℕ) (message : XPCObject) (spawns : Bool)
    (writes : List SocketWrite) (late : Bool) :
    (s.forwardOrCompose request message spawns writes late).nextTag ≤ s.nextTag + 1 := by
  rw [forwardOrCompose]
  split
  · rw [nextTag_complete, nextTag_spawnDormant]
    exact Nat.le_succ _
  · dsimp only
    split_ifs
    · rw [nextTag_wrote]
      dsimp only
      rw [nextTag_spawnDormant]
    · rw [nextTag_complete]
      dsimp only
      rw [nextTag_wrote]
      dsimp only
      rw [nextTag_spawnDormant]

theorem nextTag_handle_le (message : XPCObject) (saved spawns spawnsDormant : Bool)
    (writes : List SocketWrite) (late : Bool) :
    (s.handle message saved spawns spawnsDormant writes late).nextTag ≤ s.nextTag + 1 := by
  rw [handle]
  dsimp only
  split_ifs
  · refine (nextTag_forwardOrCompose_le _ _ _ _ _).trans ?_
    rw [nextTag_setEnabled]
  · rw [nextTag_complete, nextTag_setEnabled]
    exact Nat.le_succ _
  · exact nextTag_forwardOrCompose_le _ _ _ _ _

theorem nextTag_step_le (event : Event) : (s.step event).nextTag ≤ s.nextTag + 1 := by
  have hsame : ∀ {s' : RemoteSupervisor}, s'.nextTag = s.nextTag → s'.nextTag ≤ s.nextTag + 1 :=
    fun h => h.le.trans (Nat.le_succ _)
  cases event with
  | handle message saved spawns spawnsDormant writes late => exact nextTag_handle_le _ _ _ _ _ _
  | frame header payload =>
    refine hsame ?_
    rw [step]
    split_ifs
    · rw [handleFrame]
      split
      · split <;> rfl
      · rfl
    · rfl
  | writable writes late =>
    refine hsame ?_
    rw [step]
    split
    · rfl
    · split_ifs
      · exact nextTag_wrote _ _
      · rfl
  | linkCloses late =>
    refine hsame ?_
    rw [step]
    split_ifs
    · exact nextTag_handleLinkClosed late
    · rfl
  | exitNote late =>
    refine hsame ?_
    rw [step]
    split_ifs
    · exact nextTag_reap late
    · rfl
  | retry child late =>
    refine hsame ?_
    rw [step]
    split_ifs
    · exact nextTag_reap late
    · rfl
  | respawn spawns =>
    refine hsame ?_
    rw [step, respawn]
    dsimp only
    split_ifs
    · exact nextTag_spawnOrRetry spawns
    · rfl
    · rfl
  | exits child =>
    refine hsame ?_
    rw [step]
    split_ifs <;> rfl
  | becomesWaitable child =>
    refine hsame ?_
    rw [step, becomeWaitable]
    split_ifs <;> rfl

theorem nextTag_after_le : ∀ (events : List Event) (s : RemoteSupervisor),
    (after step s events).nextTag ≤ s.nextTag + events.length
  | [], _ => le_rfl
  | event :: events, s => by
    have hstep := @nextTag_step_le s event
    have hrest := nextTag_after_le events (s.step event)
    rw [after_cons, List.length_cons]
    omega

/-- **Tags do not come round** in fewer than `2 ^ 64` steps. -/
theorem toNat_tag {enabled spawns : Bool} {events : List Event} (hshort : events.length < 2 ^ 64)
    {tag request : ℕ}
    (hget : (after step (start enabled spawns) events).pending.get? tag = some request) :
    (UInt64.ofNat tag).toNat = tag := by
  have hanswered : Answered (after step (start enabled spawns) events) [] :=
    invariant (I := fun s => Answered s []) (fun _ event h => h.step event) events
      (answered_start enabled spawns)
  have hlt := hanswered.tag_lt tag request hget
  have hle := nextTag_after_le events (start enabled spawns)
  have hfirst : (start enabled spawns).nextTag = 1 := by cases enabled <;> cases spawns <;> rfl
  exact UInt64.toNat_ofNat_of_lt' (by rw [UInt64.size]; omega)

/-! ## Runs -/

/-- Children are cut by leftover retries only, and stay on the list. -/
theorem Kept.run_cut : ∀ (events : List Event) {s : RemoteSupervisor}, Kept s →
    s.cut.length ≤ (after RemoteSupervisor.step s events).cut.length ∧
    ((after RemoteSupervisor.step s events).cut = s.cut ↔
      Along RemoteSupervisor.step (fun s event => ¬ s.CutsBy event) s events)
  | [], _, _ => ⟨le_rfl, fun _ => trivial, fun _ => rfl⟩
  | event :: events, s, h => by
      obtain ⟨hle, hiff⟩ := Kept.run_cut events (h.step event)
      rw [h.step_cut] at hle hiff
      rw [after_cons]
      by_cases hcuts : s.CutsBy event
      · rw [if_pos hcuts, List.length_append, List.length_singleton] at hle
        refine ⟨by omega, fun heq => ?_, fun hall => absurd hcuts hall.1⟩
        rw [heq] at hle
        omega
      · rw [if_neg hcuts] at hle hiff
        exact ⟨hle, hiff.trans ⟨fun hall => ⟨hcuts, hall⟩, fun hall => hall.2⟩⟩

/-- **The supervisor over whole runs.**  Every child that is not reaped is the one tracked; every
request was answered once, or waits, once, on an open channel; while the switch is on and nothing
serves, an exit, a reap retry or a respawn is pending, and leads to a spawn.  And no helper was cut
while it ran exactly if no retry left over from an earlier child fired while one was up. -/
theorem run_supervised (enabled spawns : Bool) (events : List Event) :
    (∀ child, 0 < child → child ≤ (after step (start enabled spawns) events).spawned →
      child ∉ (after step (start enabled spawns) events).reaped →
      child = (after step (start enabled spawns) events).childPID) ∧
    Answered (after step (start enabled spawns) events) [] ∧
    ((after step (start enabled spawns) events).isEnabled →
      ¬ (after step (start enabled spawns) events).IsServing →
      ((after step (start enabled spawns) events).ExitPending ∨
        (after step (start enabled spawns) events).RetryPending ∨
        (after step (start enabled spawns) events).RespawnPending) ∧
      (after step (start enabled spawns) events).LeadsToSpawn) ∧
    ((after step (start enabled spawns) events).cut = [] ↔
      Along step (fun s event => ¬ s.CutsBy event) (start enabled spawns) events) := by
  have hkept : Kept (after step (start enabled spawns) events) :=
    invariant (I := Kept) (fun _ event h => h.step event) events (kept_start enabled spawns)
  have hanswered : Answered (after step (start enabled spawns) events) [] :=
    invariant (I := fun s => Answered s []) (fun _ event h => h.step event) events
      (answered_start enabled spawns)
  refine ⟨hkept.tracked, hanswered,
    fun hon hdown => ⟨hkept.pending hon hdown, hkept.leadsToSpawn hon⟩, ?_⟩
  have huncut : (start enabled spawns).cut = [] := by
    cases enabled <;> cases spawns <;> rfl
  rw [← huncut]
  exact ((kept_start enabled spawns).run_cut events).2

/-- **A live helper is cut.**  The first child exits; its exit note comes before it is waitable, so
that the reap and the close inside it both ask again.  The first retry takes the child and the next
one is spawned; the second retry closes its channel. -/
theorem run_cut_second :
    (after step (start true true)
      [.exits 1, .exitNote false, .becomesWaitable 1, .retry 1 false, .respawn true,
        .retry 1 false]).cut = [2] ∧
    2 ∉ (after step (start true true)
      [.exits 1, .exitNote false, .becomesWaitable 1, .retry 1 false, .respawn true,
        .retry 1 false]).exited := by
  decide

end RemoteSupervisor
