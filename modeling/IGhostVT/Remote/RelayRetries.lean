import IGhostVT.Remote.RelayLink

/-!
# Remote/RelayRetries — a link is registered, on its way there, or done for good

The state of a link says which of its connections, heartbeat and timers there are (`AtState`),
whatever the relay sent and however connections ended.

* `registration_after` — one connection at most, and what each state promises.
* `registers_again` — a link that is not done for good registers again as soon as the relay answers.
* `stays_final` — a link that is done for good opens nothing, whatever still comes.
* `calls_after` — its calls back are a run of the book of `RelayCallBacks`.
-/

def Timer.generation : Timer → ℕ
  | .connect g | .retry g | .pong g _ => g

namespace RelayLink

/-- Stopped, or refused in a way that trying again does not mend. -/
def isFinal (s : RelayLink) : Bool :=
  s.isStopped || s.state = .conflict || s.state = .versionMismatch

/-- What a link has in each of its states. -/
def AtState (s : RelayLink) : Prop :=
  match s.state with
  | .connecting =>
    s.control = some s.generation ∧ s.heartbeat = none ∧ .connect s.generation ∈ s.timers ∧
      s.controls s.generation ∈ [none, some .ready, some .hello, some .answer]
  | .registered =>
    s.control = some s.generation ∧ s.heartbeat = some s.generation ∧ s.message = none ∧
      s.controls s.generation ∈ [none, some .frame]
  | .failed =>
    s.control = none ∧ s.heartbeat = none ∧ .retry s.generation ∈ s.timers ∧ s.message.isSome
  | .conflict | .versionMismatch => s.control = none ∧ s.message.isSome
  | .off => False

/-- A link whose connections are closed, on the way from one state to another. -/
structure Closed (s : RelayLink) : Prop where
  closed : ∀ g, s.controls g = none
  delay : 1 ≤ s.retryDelay ∧ s.retryDelay ≤ maximumRetryDelay
  timers : ∀ t ∈ s.timers, t.generation ≤ s.generation

/-- A link while one of its closures runs. -/
structure Single (s : RelayLink) : Prop where
  single : ∀ g, s.controls g ≠ none → s.control = some g
  current : ∀ g, s.control = some g → g = s.generation
  delay : 1 ≤ s.retryDelay ∧ s.retryDelay ≤ maximumRetryDelay
  timers : ∀ t ∈ s.timers, t.generation ≤ s.generation

/-- What holds between the closures of the queue. -/
structure Sound (s : RelayLink) : Prop extends s.Single where
  final : s.isFinal → s.control = none ∧ s.heartbeat = none ∧
    ∀ t ∈ s.timers, t.generation < s.generation
  state : ¬ s.isStopped → s.AtState

variable {s : RelayLink} {g : ℕ} {error : RelayError}

/-! ## Closing, failing, connecting

Every way an attempt ends goes through `failed`, which closes first and then is done for good or
sets a timer. -/

/-- The first delay is within the bounds of a delay. -/
theorem firstDelay : 1 ≤ 1 ∧ 1 ≤ maximumRetryDelay := ⟨le_refl 1, by decide⟩

/-- Timers that are added belong to no later attempt. -/
theorem mem_timers {t u : Timer} {ts : List Timer} {n : ℕ} (hts : ∀ t ∈ ts, t.generation ≤ n)
    (hu : u.generation ≤ n) (ht : t ∈ ts ++ [u]) : t.generation ≤ n := by
  rcases List.mem_append.mp ht with ht | ht
  · exact hts t ht
  · exact List.mem_singleton.mp ht ▸ hu

/-- One control connection at most, so closing it leaves none. -/
theorem Single.closeControl (h : s.Single) : s.closeControl.Closed := by
  refine ⟨fun g => ?_, h.delay, h.timers⟩
  rw [RelayLink.closeControl]
  dsimp only
  cases hcontrol : s.control with
  | none =>
    by_contra hopen
    exact absurd ((h.single g hopen).symm.trans hcontrol) (by simp)
  | some g' =>
    rw [Option.elim_some]
    by_cases hg : g = g'
    · rw [hg, Function.update_self]
    · rw [Function.update_of_ne hg]
      by_contra hopen
      exact hg (Option.some.inj ((h.single g hopen).symm.trans hcontrol))

/-- A final state has no connection and no timer that acts. -/
theorem Closed.stopRetrying (h : s.closeControl.Closed) {state : RelayState} {message : String}
    (hstate : state = .conflict ∨ state = .versionMismatch) :
    (s.stopRetrying state message).Sound ∧ (s.stopRetrying state message).Closed := by
  have hclosed : (s.stopRetrying state message).Closed :=
    ⟨h.closed, h.delay, fun t ht => Nat.le_succ_of_le (h.timers t ht)⟩
  refine ⟨⟨⟨fun g hopen => absurd (h.closed g) hopen, fun g hg => (by cases hg), h.delay,
    hclosed.timers⟩, fun _ => ⟨rfl, rfl, fun t ht => Nat.lt_succ_of_le (h.timers t ht)⟩,
      fun _ => ?_⟩, hclosed⟩
  rcases hstate with rfl | rfl <;> exact ⟨rfl, rfl⟩

/-- A later attempt has its timer, and no connection until then. -/
theorem Closed.retryLater (h : s.Closed) (hcontrol : s.control = none)
    (hheartbeat : s.heartbeat = none) (hstopped : s.isStopped = false) {message : String} :
    (s.retryLater message).Sound ∧ (s.retryLater message).Closed := by
  have hdelay : 1 ≤ min (s.retryDelay * 2) maximumRetryDelay ∧
      min (s.retryDelay * 2) maximumRetryDelay ≤ maximumRetryDelay :=
    ⟨le_min (Nat.le_mul_of_pos_right _ (by decide) |>.trans' h.delay.1) (by decide),
      min_le_right _ _⟩
  have hclosed : (s.retryLater message).Closed :=
    ⟨h.closed, hdelay, fun t ht => mem_timers h.timers (le_refl _) ht⟩
  have hfinal : ¬ (s.retryLater message).isFinal := by
    simp [isFinal, RelayLink.retryLater, hstopped]
  refine ⟨⟨⟨fun g hopen => absurd (h.closed g) hopen, fun g hg => ?_, hdelay, hclosed.timers⟩,
    fun hno => absurd hno hfinal, fun _ => ⟨hcontrol, hheartbeat, ?_, rfl⟩⟩, hclosed⟩
  · cases hcontrol.symm.trans hg
  · exact List.mem_append_right _ List.mem_cons_self

/-- **Failing**: the link waits to try again, or is done for good. -/
theorem Closed.fail (h : s.Closed) (hstopped : s.isStopped = false) (error : RelayError) :
    (s.fail error).Sound ∧ (s.fail error).Closed := by
  have hlet : Closed { s with control := none, heartbeat := none } := ⟨h.closed, h.delay, h.timers⟩
  unfold RelayLink.fail
  split
  · exact Closed.stopRetrying (s := { s with control := none, heartbeat := none }) hlet (Or.inr rfl)
  · exact Closed.stopRetrying (s := { s with control := none, heartbeat := none }) hlet (Or.inl rfl)
  · exact hlet.retryLater rfl rfl hstopped

/-- Failing does not stop a link. -/
theorem isStopped_fail : (s.fail error).isStopped = s.isStopped := by
  unfold RelayLink.fail
  split <;> rfl

/-- Failing closes what there is. -/
theorem Single.closing (h : s.Single) : s.closing.Closed := by
  rw [RelayLink.closing]
  split
  next hstarting =>
    exact (h.closeControl.fail (Bool.not_eq_true' _ ▸ (Bool.and_eq_true_iff.mp hstarting).2) _).2
  next => exact h.closeControl

/-- Nor does closing stop it. -/
@[simp] theorem isStopped_closing : s.closing.isStopped = s.isStopped := by
  rw [RelayLink.closing]
  split
  · exact isStopped_fail
  · rfl

/-- **After a failure a link is done for good or has a timer to try again.** -/
theorem Single.failed (h : s.Single) (hstopped : s.isStopped = false) (error : RelayError) :
    (s.failed error).Sound ∧ (s.failed error).Closed := by
  rw [RelayLink.failed, if_neg (by simp [hstopped])]
  exact h.closing.fail (by rw [isStopped_closing, hstopped]) error

/-- An attempt opens one connection. -/
theorem Single.connect (h : s.Single) (hstopped : s.isStopped = false) : s.connect.Sound := by
  have hclosing := h.closing
  have hother : ∀ g, s.connect.controls g ≠ none → g = s.connect.generation := fun g hopen => by
    by_contra hg
    exact hopen ((Function.update_of_ne hg ..).trans (hclosing.closed g))
  have hfinal : ¬ s.connect.isFinal := by simp [isFinal, RelayLink.connect, hstopped]
  refine ⟨⟨fun g hopen => congrArg some (hother g hopen).symm,
    fun g hg => (Option.some.inj hg).symm, hclosing.delay,
    fun t ht => mem_timers (fun t ht => Nat.le_succ_of_le (hclosing.timers t ht))
      (le_refl _) ht⟩,
    fun hno => absurd hno hfinal,
    fun _ => ⟨rfl, rfl, List.mem_append_right _ List.mem_cons_self, ?_⟩⟩
  have hstarts : s.connect.controls s.connect.generation = some .ready := Function.update_self ..
  rw [hstarts]
  simp

/-- The fields that no state speaks of. -/
theorem Single.aside (h : s.Single) (lastHeard now : ℕ) (calls : CallBacks)
    (lastPathSignature : Option String) :
    Single { s with lastHeard, now, calls, lastPathSignature } :=
  ⟨h.single, h.current, h.delay, h.timers⟩

/-- Clocks, paths and calls back are no part of an attempt. -/
theorem Sound.aside (h : s.Sound) (lastHeard now : ℕ) (calls : CallBacks)
    (lastPathSignature : Option String) :
    Sound { s with lastHeard, now, calls, lastPathSignature } :=
  ⟨h.toSingle.aside .., h.final, h.state⟩

/-! ## What a connection delivers

The steps of a registration in their order, each with its error. -/

/-- A connection that is open is the current one, and the link is not done for good. -/
theorem Sound.current_of_open (h : s.Sound) (hopen : s.controls g ≠ none) :
    s.control = some g ∧ g = s.generation ∧ s.isFinal = false := by
  have hcontrol := h.single g hopen
  refine ⟨hcontrol, h.current g hcontrol, Bool.eq_false_of_not_eq_true fun hfinal => ?_⟩
  cases hcontrol.symm.trans (h.final hfinal).1

/-- A link is done for good when it was stopped, taken over or too old. -/
theorem of_isFinal (h : s.isFinal = true) :
    s.isStopped = true ∨ s.state = .conflict ∨ s.state = .versionMismatch := by
  simpa [isFinal, or_assoc] using h

/-- One that is not was not stopped. -/
theorem stopped_of_isFinal (h : s.isFinal = false) : s.isStopped = false := by
  simp only [isFinal, Bool.or_eq_false_iff] at h
  exact h.1.1

/-- A sound link that was not stopped waits in its state for what ends it. -/
theorem Sound.atState (h : s.Sound) (hstopped : s.isStopped = false) : s.AtState :=
  h.state (by simp [hstopped])

/-- A closure of the current connection runs. -/
theorem Sound.setControl (h : s.Sound) (hopen : s.controls g ≠ none) (awaits : Option Awaits) :
    (s.setControl g awaits).Single := by
  refine ⟨fun g' hopen' => ?_, h.current, h.delay, h.timers⟩
  by_cases hg : g' = g
  · exact hg ▸ h.single g hopen
  · rw [RelayLink.setControl] at hopen'
    dsimp only at hopen'
    rw [Function.update_of_ne hg] at hopen'
    exact h.single g' hopen'

/-- What the current connection waits for changes, as the state allows it. -/
theorem Sound.awaiting (h : s.Sound) (hopen : s.controls g ≠ none) {awaits : Option Awaits}
    (hstate : s.state = .connecting ∧ awaits ∈ [none, some .ready, some .hello, some .answer] ∨
      s.state = .registered ∧ awaits ∈ [none, some .frame]) : (s.setControl g awaits).Sound := by
  obtain ⟨-, hg, hfinal⟩ := h.current_of_open hopen
  have hat := h.atState (stopped_of_isFinal hfinal)
  refine ⟨h.setControl hopen awaits, h.final, fun _ => ?_⟩
  have hself : (s.setControl g awaits).controls (s.setControl g awaits).generation = awaits :=
    (congrArg _ hg.symm).trans (Function.update_self ..)
  rcases hstate with ⟨hstate, hawaits⟩ | ⟨hstate, hawaits⟩
  · have hstate' : (s.setControl g awaits).state = .connecting := hstate
    rw [AtState, hstate] at hat
    rw [AtState, hstate']
    exact ⟨hat.1, hat.2.1, hat.2.2.1, hself.symm ▸ hawaits⟩
  · have hstate' : (s.setControl g awaits).state = .registered := hstate
    rw [AtState, hstate] at hat
    rw [AtState, hstate']
    exact ⟨hat.1, hat.2.1, hat.2.2.1, hself.symm ▸ hawaits⟩

/-- The state an open connection belongs to. -/
theorem Sound.state_of_open (h : s.Sound) {awaits : Awaits} (hopen : s.controls g = some awaits) :
    s.state = .connecting ∧ awaits ∈ [Awaits.ready, .hello, .answer] ∨
      s.state = .registered ∧ awaits = .frame := by
  obtain ⟨hcontrol, hg, hfinal⟩ := h.current_of_open (hopen ▸ Option.some_ne_none _)
  have hat := h.atState (stopped_of_isFinal hfinal)
  rw [AtState] at hat
  cases hstate : s.state <;> rw [hstate] at hat
  case connecting =>
    rw [← hg, hopen] at hat
    simpa using hat.2.2.2
  case registered =>
    rw [← hg, hopen] at hat
    simpa using hat.2.2.2
  all_goals first | exact hat.elim | cases hcontrol.symm.trans hat.1

/-- What a connection awaits is what was set last. -/
@[simp] theorem setControl_self (awaits : Option Awaits) :
    (s.setControl g awaits).controls g = awaits :=
  Function.update_self ..

/-- The last one counts. -/
@[simp] theorem setControl_setControl (awaits awaits' : Option Awaits) :
    (s.setControl g awaits).setControl g awaits' = s.setControl g awaits' :=
  congrArg (fun controls => { s with controls }) (Function.update_idem ..)

/-- Where no connection is, there is none to close. -/
theorem Closed.setControl (h : s.Closed) : s.setControl g none = s :=
  congrArg (fun controls => { s with controls }) (Function.update_eq_self_iff.mpr (h.closed g).symm)

/-- The closing of an open connection by itself, which tells no one. -/
theorem Sound.dies (h : s.Sound) (hopen : s.controls g ≠ none) : (s.setControl g none).Sound := by
  obtain ⟨awaits, hawaits⟩ := Option.ne_none_iff_exists'.mp hopen
  refine h.awaiting hopen ?_
  rcases h.state_of_open hawaits with ⟨hstate, -⟩ | ⟨hstate, -⟩
  · exact Or.inl ⟨hstate, List.mem_cons_self⟩
  · exact Or.inr ⟨hstate, List.mem_cons_self⟩

/-- A link with an open connection that fails has none left. -/
theorem Sound.failed_of_open (h : s.Sound) (hopen : s.controls g ≠ none) (error : RelayError) :
    ((s.setControl g (some .nothing)).failed error).Sound ∧
      ((s.setControl g (some .nothing)).failed error).Closed :=
  (h.setControl hopen _).failed (stopped_of_isFinal (h.current_of_open hopen).2.2) error

/-! What the closures of the current connection do. -/

/-- A connection that is ready says hello. -/
theorem ready_none (hg : g = s.generation) : s.ready g none = s.setControl g (some .hello) := by
  rw [← setControl_setControl (some .nothing)]
  exact if_pos hg

/-- One that fails before that is closed. -/
theorem ready_some (hg : g = s.generation) :
    s.ready g (some error) = ((s.setControl g (some .nothing)).failed error).setControl g none :=
  congrArg (fun t => setControl t g none) (if_pos hg)

/-- The challenge is signed, or the attempt fails. -/
theorem hello_none (hg : g = s.generation) {signs : Bool} : s.hello g none signs =
    if signs then s.setControl g (some .answer)
    else (s.setControl g (some .nothing)).failed (.malformed "could not sign") := by
  rw [← setControl_setControl (some .nothing) (some .answer)]
  exact if_pos hg

/-- A connection that fails here is closed too. -/
theorem hello_some (hg : g = s.generation) {signs : Bool} :
    s.hello g (some error) signs = (s.setControl g (some .nothing)).failed error := if_pos hg

/-- An answer registers the link. -/
theorem answer_none (hg : g = s.generation) : s.answer g none = { s.setControl g (some .frame) with
    state := .registered, message := none, retryDelay := 1, lastHeard := s.now,
    heartbeat := some g } := by
  rw [← setControl_setControl (some .nothing)]
  exact if_pos hg

/-- A refusal fails the attempt. -/
theorem answer_some (hg : g = s.generation) :
    s.answer g (some error) = (s.setControl g (some .nothing)).failed error := if_pos hg

/-- A connection that is ready keeps the link sound. -/
theorem Sound.ready (h : s.Sound) (hopen : s.controls g = some .ready) (error : Option RelayError) :
    (s.ready g error).Sound := by
  have hne : s.controls g ≠ none := hopen ▸ Option.some_ne_none _
  obtain ⟨-, hg, -⟩ := h.current_of_open hne
  have hstate : s.state = .connecting := by simpa using h.state_of_open hopen
  cases error with
  | none =>
    rw [ready_none hg]
    exact h.awaiting hne (Or.inl ⟨hstate, by simp⟩)
  | some error =>
    obtain ⟨hsound, hclosed⟩ := h.failed_of_open hne error
    rw [ready_some hg, hclosed.setControl]
    exact hsound

/-- So does a challenge. -/
theorem Sound.hello (h : s.Sound) (hopen : s.controls g = some .hello) (error : Option RelayError)
    (signs : Bool) : (s.hello g error signs).Sound := by
  have hne : s.controls g ≠ none := hopen ▸ Option.some_ne_none _
  obtain ⟨-, hg, -⟩ := h.current_of_open hne
  have hstate : s.state = .connecting := by simpa using h.state_of_open hopen
  cases error with
  | some error =>
    rw [hello_some hg]
    exact (h.failed_of_open hne error).1
  | none =>
    rw [hello_none hg]
    split
    · exact h.awaiting hne (Or.inl ⟨hstate, by simp⟩)
    · exact (h.failed_of_open hne _).1

/-- So does an answer. -/
theorem Sound.answer (h : s.Sound) (hopen : s.controls g = some .answer)
    (error : Option RelayError) :
    (s.answer g error).Sound := by
  have hne : s.controls g ≠ none := hopen ▸ Option.some_ne_none _
  obtain ⟨hcontrol, hg, hfinal⟩ := h.current_of_open hne
  cases error with
  | some error =>
    rw [answer_some hg]
    exact (h.failed_of_open hne error).1
  | none =>
    rw [answer_none hg]
    have hsingle := h.setControl hne (some .frame)
    refine ⟨⟨hsingle.single, hsingle.current, firstDelay, hsingle.timers⟩, fun hno => ?_, fun _ =>
      ⟨hg ▸ hcontrol, congrArg some hg, rfl, ?_⟩⟩
    · simp [isFinal, RelayLink.setControl, stopped_of_isFinal hfinal] at hno
    · have hself : (s.setControl g (some .frame)).controls s.generation = some .frame :=
        (congrArg _ hg.symm).trans (setControl_self _)
      exact hself.symm ▸ (by simp)

/-- So does each frame behind it. -/
theorem Sound.frame (h : s.Sound) (hopen : s.controls g = some .frame)
    (frame : Except RelayError Frame) (means : CallBacks.Means) :
    (s.frame g frame means).Sound := by
  have hne : s.controls g ≠ none := hopen ▸ Option.some_ne_none _
  obtain ⟨hcontrol, hg, hfinal⟩ := h.current_of_open hne
  have hstate : s.state = .registered := by simpa using h.state_of_open hopen
  have hreads : (s.setControl g (some .frame)).Sound := h.awaiting hne (Or.inr ⟨hstate, by simp⟩)
  have hsingle := (h.setControl hne (some .nothing)).aside s.now s.now s.calls s.lastPathSignature
  unfold RelayLink.frame
  dsimp only
  rw [if_pos (show g = (s.setControl g (some .nothing)).generation from hg)]
  simp only [setControl_setControl]
  split
  · exact (h.failed_of_open hne _).1
  · exact (Closed.stopRetrying hsingle.closeControl (Or.inl rfl)).1
  · exact hreads.aside s.now _ _ _
  · exact hreads.aside s.now _ _ _

/-! ## Timers, and what is asked of the link

A timer carries the attempt it was set in, and one of an earlier attempt does nothing. -/

/-- A timer that has fired is gone. -/
theorem Sound.fired (h : s.Sound) (i : ℕ) : Single { s with timers := s.timers.eraseIdx i } :=
  ⟨h.single, h.current, h.delay, fun t ht => h.timers t (List.mem_of_mem_eraseIdx ht)⟩

/-- A timer that fired is gone, and no other is. -/
theorem mem_eraseIdx {ts : List Timer} {i : ℕ} {t u : Timer} (hi : ts[i]? = some t) (hu : u ∈ ts)
    (hne : t ≠ u) : u ∈ ts.eraseIdx i := by
  obtain ⟨j, hj⟩ := List.getElem?_of_mem hu
  refine List.mem_eraseIdx_iff_getElem?.mpr ⟨j, fun hji => hne ?_, hj⟩
  exact Option.some.inj (hi.symm.trans (hji ▸ hj))

/-- A state asks for its own timer alone. -/
theorem AtState.withTimers (h : s.AtState) {ts : List Timer}
    (hconnect : s.state = .connecting → .connect s.generation ∈ s.timers →
    .connect s.generation ∈ ts)
    (hretry : s.state = .failed → .retry s.generation ∈ s.timers → .retry s.generation ∈ ts) :
    AtState { s with timers := ts } := by
  cases s with
  | mk state =>
    cases state with
    | connecting => exact ⟨h.1, h.2.1, hconnect rfl h.2.2.1, h.2.2.2⟩
    | failed => exact ⟨h.1, h.2.1, hretry rfl h.2.2.1, h.2.2.2⟩
    | off => exact h
    | registered => exact h
    | conflict => exact h
    | versionMismatch => exact h

/-- A timer the link does not wait for has fired. -/
theorem Sound.fired_stale (h : s.Sound) {i : ℕ} {t : Timer} (hi : s.timers[i]? = some t)
    (hconnect : s.state = .connecting → t ≠ .connect s.generation)
    (hretry : s.isStopped = false → s.state = .failed → t ≠ .retry s.generation) :
    Sound { s with timers := s.timers.eraseIdx i } := by
  refine ⟨h.fired i, fun hfinal => ?_, fun hstopped => ?_⟩
  · obtain ⟨hcontrol, hheartbeat, htimers⟩ := h.final hfinal
    exact ⟨hcontrol, hheartbeat, fun t ht => htimers t (List.mem_of_mem_eraseIdx ht)⟩
  · exact (h.state hstopped).withTimers (fun hs hmem => mem_eraseIdx hi hmem (hconnect hs))
      fun hs hmem => mem_eraseIdx hi hmem (hretry (Bool.eq_false_of_not_eq_true hstopped) hs)

/-- A timer of the current generation is not that of a link that is done for good. -/
theorem Sound.isFinal_of_timer (h : s.Sound) {t : Timer} (ht : t ∈ s.timers)
    (hg : t.generation = s.generation) : s.isFinal = false :=
  Bool.eq_false_of_not_eq_true fun hfinal => (hg ▸ (h.final hfinal).2.2 t ht).false

/-- A timer that fires acts in its own attempt only. -/
theorem Sound.fire (h : s.Sound) {i : ℕ} {t : Timer} (hi : s.timers[i]? = some t) :
    (({ s with timers := s.timers.eraseIdx i } : RelayLink).fire t).Sound := by
  have hmem := List.mem_of_getElem? hi
  have hrunning : t.generation = s.generation → s.isStopped = false := fun hg =>
    stopped_of_isFinal (h.isFinal_of_timer hmem hg)
  cases t with
  | connect g =>
    rw [RelayLink.fire]
    split
    next hfires => exact ((h.fired i).failed (hrunning (by simp_all [Timer.generation])) _).1
    next hno => exact h.fired_stale hi (fun hs heq => hno (by simp_all)) (fun _ _ => by simp)
  | retry g =>
    rw [RelayLink.fire]
    split
    next hfires => exact (h.fired i).connect (hrunning (by simp_all [Timer.generation]))
    next hno => exact h.fired_stale hi (fun _ => by simp) (fun hstopped hs heq => hno (by simp_all))
  | pong g sentAt =>
    rw [RelayLink.fire]
    split
    next hfires => exact ((h.fired i).failed (hrunning (by simp_all [Timer.generation])) _).1
    next => exact h.fired_stale hi (fun _ => by simp) (fun _ _ => by simp)

/-- A heartbeat goes on, or finds a relay that went silent. -/
theorem Sound.beat (h : s.Sound) : s.beat.Sound := by
  rw [RelayLink.beat]
  split
  · exact h
  next g hheartbeat =>
    split
    case isFalse => exact h
    next hbeats =>
      have hg : g = s.generation := by simp_all
      refine ⟨⟨h.single, h.current, h.delay,
          fun t ht => mem_timers (u := .pong g s.now) h.timers hg.le ht⟩, fun hfinal => ?_,
        fun hstopped => (h.state hstopped).withTimers (fun _ => List.mem_append_left _)
          fun _ => List.mem_append_left _⟩
      cases hheartbeat.symm.trans (h.final hfinal).2.1

/-- An attempt whose delay starts over. -/
theorem Sound.connect_again (h : s.Sound) (hstopped : s.isStopped = false) :
    ({ s with retryDelay := 1 } : RelayLink).connect.Sound :=
  Single.connect ⟨h.single, h.current, firstDelay, h.timers⟩ hstopped

/-- Asking to register starts an attempt, unless there is nothing to start. -/
theorem Sound.register (h : s.Sound) : s.register.Sound := by
  rw [RelayLink.register]
  split
  next hasked => exact h.connect_again (by simp_all)
  next => exact h

/-- So does another path. -/
theorem Sound.pathChanged (h : s.Sound) (interfaces : Option String) :
    (s.pathChanged interfaces).Sound := by
  rw [RelayLink.pathChanged]
  split
  next hchanged => exact (h.connect_again (by simp_all)).aside _ _ _ _
  next => exact h.aside _ _ _ _

/-- A link that is stopped has neither connection nor timer. -/
theorem Sound.stop (h : s.Sound) : s.stop.Sound := by
  have hclosed := h.toSingle.closeControl
  refine ⟨⟨fun g hopen => absurd (hclosed.closed g) hopen, fun g hg => (by cases hg), h.delay,
    fun t ht => Nat.le_succ_of_le (h.timers t ht)⟩,
    fun _ => ⟨rfl, rfl, fun t ht => Nat.lt_succ_of_le (h.timers t ht)⟩, fun hno => absurd rfl hno⟩

/-- A new link is sound. -/
theorem sound_start : start.Sound :=
  Single.connect ⟨fun g hopen => absurd rfl hopen, fun g hg => (by cases hg),
    firstDelay, fun t ht => absurd ht List.not_mem_nil⟩ rfl

/-- **Every event keeps a link sound.** -/
theorem Sound.step (h : s.Sound) (e : Event) : (s.step e).Sound := by
  cases e with
  | ready g error =>
    rw [RelayLink.step]
    split
    next hopen => exact h.ready hopen error
    next => exact h
  | hello g error signs =>
    rw [RelayLink.step]
    split
    next hopen => exact h.hello hopen error signs
    next => exact h
  | answer g error =>
    rw [RelayLink.step]
    split
    next hopen => exact h.answer hopen error
    next => exact h
  | frame g frame means =>
    rw [RelayLink.step]
    split
    next hopen => exact h.frame hopen frame means
    next => exact h
  | dies g =>
    rw [RelayLink.step]
    split
    next => exact h
    next =>
      by_cases hopen : s.controls g = none
      · rw [RelayLink.setControl, Function.update_eq_self_iff.mpr hopen.symm]
        exact h
      · exact h.dies hopen
  | fire i =>
    rw [RelayLink.step]
    split
    next => exact h
    next t hi => exact h.fire hi
  | beat => exact h.beat
  | tick seconds => exact h.aside _ _ _ _
  | pathChanged interfaces => exact h.pathChanged interfaces
  | register => exact h.register
  | stop => exact h.stop
  | called i answer => exact h.aside _ _ _ _
  | noteFinished means => exact h.aside _ _ _ _

/-- **One registration**: after any run at most one connection is open, it is the current one, and
the link has what its state promises. -/
theorem registration_after (es : List Event) : (after es).Sound :=
  Run.invariant (I := Sound) (fun _ e h => Sound.step h e) es sound_start

/-! ## Done for good

No event takes a link out of a final state. -/

/-- Nothing is left that a closure could act on. -/
theorem Sound.step_final (h : s.Sound) (hfinal : s.isFinal = true) (e : Event) :
    (s.step e).isFinal = true ∧ (s.step e).state = s.state ∧ (s.step e).message = s.message := by
  have hclosed : ∀ g awaits, s.controls g ≠ some awaits := fun g awaits hopen => by
    cases (h.single g (hopen ▸ Option.some_ne_none _)).symm.trans (h.final hfinal).1
  cases e with
  | ready g error =>
    rw [RelayLink.step, if_neg (hclosed g _)]
    exact ⟨hfinal, rfl, rfl⟩
  | hello g error signs =>
    rw [RelayLink.step, if_neg (hclosed g _)]
    exact ⟨hfinal, rfl, rfl⟩
  | answer g error =>
    rw [RelayLink.step, if_neg (hclosed g _)]
    exact ⟨hfinal, rfl, rfl⟩
  | frame g frame means =>
    rw [RelayLink.step, if_neg (hclosed g _)]
    exact ⟨hfinal, rfl, rfl⟩
  | dies g =>
    rw [RelayLink.step, if_neg (hclosed g _)]
    exact ⟨hfinal, rfl, rfl⟩
  | fire i =>
    rw [RelayLink.step]
    split
    next => exact ⟨hfinal, rfl, rfl⟩
    next t hi =>
      have hold := ((h.final hfinal).2.2 t (List.mem_of_getElem? hi)).ne
      cases t with
      | connect g =>
        rw [RelayLink.fire, if_neg (by simp_all [Timer.generation])]
        exact ⟨hfinal, rfl, rfl⟩
      | retry g =>
        rw [RelayLink.fire, if_neg (by simp_all [Timer.generation])]
        exact ⟨hfinal, rfl, rfl⟩
      | pong g sentAt =>
        rw [RelayLink.fire, if_neg (by simp_all [Timer.generation])]
        exact ⟨hfinal, rfl, rfl⟩
  | beat =>
    rw [RelayLink.step, RelayLink.beat, (h.final hfinal).2.1]
    exact ⟨hfinal, rfl, rfl⟩
  | pathChanged interfaces =>
    rw [RelayLink.step, RelayLink.pathChanged,
      if_neg (by rcases of_isFinal hfinal with hno | hno | hno <;> simp [hno])]
    exact ⟨hfinal, rfl, rfl⟩
  | register =>
    rw [RelayLink.step, RelayLink.register,
      if_neg (by rcases of_isFinal hfinal with hno | hno | hno <;> simp [hno])]
    exact ⟨hfinal, rfl, rfl⟩
  | stop => exact ⟨rfl, rfl, rfl⟩
  | tick seconds => exact ⟨hfinal, rfl, rfl⟩
  | called i answer => exact ⟨hfinal, rfl, rfl⟩
  | noteFinished means => exact ⟨hfinal, rfl, rfl⟩

/-- **Done for good**: once a link is stopped, or was refused in a way that trying again does not
mend, no event opens a connection again, and the settings page keeps what it shows. -/
theorem stays_final (es fs : List Event) (hfinal : (after es).isFinal = true) :
    (after (es ++ fs)).isFinal = true ∧ (after (es ++ fs)).state = (after es).state ∧
      (after (es ++ fs)).message = (after es).message ∧
      ∀ g, (after (es ++ fs)).controls g = none := by
  obtain ⟨hsound, hend, hstate, hmessage⟩ := Run.invariant
    (I := fun t : RelayLink => t.Sound ∧ t.isFinal = true ∧ t.state = (after es).state ∧
      t.message = (after es).message)
    (fun t e h => by
      obtain ⟨hend, hstate, hmessage⟩ := h.1.step_final h.2.1 e
      exact ⟨h.1.step e, hend, hstate.trans h.2.2.1, hmessage.trans h.2.2.2⟩)
    fs ⟨registration_after es, hfinal, rfl, rfl⟩
  rw [after, Run.after_append]
  refine ⟨hend, hstate, hmessage, fun g => ?_⟩
  by_contra hopen
  cases (hsound.single g hopen).symm.trans (hsound.final hend).1

/-- A run in which another machine takes the registration over. -/
def takenOver : List Event :=
  [.ready 1 none, .hello 1 none true, .answer 1 none,
    .frame 1 (.ok .superseded) ⟨true, fun _ => true⟩]

theorem stays_final_takenOver :
    (after takenOver).isFinal = true ∧ (after (takenOver ++ [.register, .fire 0])).isFinal = true ∧
      (after (takenOver ++ [.register, .fire 0])).state = .conflict ∧
        ∀ g, (after (takenOver ++ [.register, .fire 0])).controls g = none :=
  have hstays := stays_final takenOver [.register, .fire 0] rfl
  ⟨rfl, hstays.1, hstays.2.1, hstays.2.2.2⟩

/-! ## Not done for good

The run that starts another attempt is made of the link's own timers. -/

/-- What comes without the relay: a timer, a beat, and time. -/
def Event.isOwn : Event → Bool
  | .fire _ | .beat | .tick _ => true
  | _ => false

/-- A link that its own events bring to a new connection. -/
def Reconnects (s : RelayLink) : Prop :=
  ∃ fs : List Event, (∀ f ∈ fs, f.isOwn = true) ∧
    s.generation < (Run.after RelayLink.step s fs).generation ∧
    (Run.after RelayLink.step s fs).state = .connecting ∧
      (Run.after RelayLink.step s fs).controls (Run.after RelayLink.step s fs).generation =
      some .ready

/-- What reconnects after a step of its own reconnects. -/
theorem Reconnects.cons {f : Event} (hf : f.isOwn = true)
    (hle : s.generation ≤ (s.step f).generation) (h : (s.step f).Reconnects) : s.Reconnects := by
  obtain ⟨fs, hfs, hlt, hstate, hready⟩ := h
  exact ⟨f :: fs, List.forall_mem_cons.mpr ⟨hf, hfs⟩, Nat.lt_of_le_of_lt hle hlt, hstate, hready⟩

/-- Closing starts no attempt. -/
theorem generation_closing : s.closing.generation = s.generation := by
  rw [closing]
  split <;> rfl

/-- The retry of a failed link connects. -/
theorem Sound.reconnects_failed (h : s.Sound) (hstopped : s.isStopped = false)
    (hstate : s.state = .failed) :
    s.Reconnects := by
  have hat := h.atState hstopped
  rw [AtState, hstate] at hat
  obtain ⟨i, hi⟩ := List.getElem?_of_mem hat.2.2.1
  have hstep : s.step (.fire i) =
      ({ s with timers := s.timers.eraseIdx i } : RelayLink).connect := by
    rw [RelayLink.step, hi]
    dsimp only
    rw [RelayLink.fire, if_pos (by simp [hstopped, hstate])]
  refine ⟨[.fire i], by simp [Event.isOwn], ?_⟩
  rw [Run.after_cons, Run.after_nil, hstep]
  refine ⟨?_, rfl, Function.update_self ..⟩
  rw [RelayLink.connect]
  dsimp only
  rw [generation_closing]
  exact Nat.lt_succ_self _

/-- A link that could not reach its relay waits to try again. -/
theorem Sound.reconnects_unreachable (h : s.Sound) {t : RelayLink} (hstopped : t.isStopped = false)
    {f : Event} (hf : f.isOwn = true) (hg : t.generation = s.generation) (reason : String)
    (hstep : s.step f = t.failed (.unreachable reason)) : s.Reconnects := by
  have hnext := h.step f
  have hfails : t.failed (.unreachable reason) = t.closing.fail (.unreachable reason) := by
    rw [failed, if_neg (by simp [hstopped])]
  rw [hfails] at hstep
  have hle : (s.step f).generation = s.generation := by
    rw [hstep]
    exact (generation_closing (s := t)).trans hg
  refine Reconnects.cons hf hle.ge (hnext.reconnects_failed ?_ ?_) <;> rw [hstep]
  · exact (isStopped_closing (s := t)).trans hstopped
  · rfl

/-- An attempt that goes on has its timeout, and the next one behind it. -/
theorem Sound.reconnects_connecting (h : s.Sound) (hstopped : s.isStopped = false)
    (hstate : s.state = .connecting) : s.Reconnects := by
  have hat := h.atState hstopped
  rw [AtState, hstate] at hat
  obtain ⟨i, hi⟩ := List.getElem?_of_mem hat.2.2.1
  refine h.reconnects_unreachable (t := { s with timers := s.timers.eraseIdx i }) (f := .fire i)
    hstopped rfl
    rfl "no answer in 15 s" ?_
  rw [RelayLink.step, hi]
  dsimp only
  rw [RelayLink.fire, if_pos (by simp [hstate])]

/-- A relay that no longer answers is noticed by the heartbeat. -/
theorem Sound.reconnects_registered (h : s.Sound) (hstopped : s.isStopped = false)
    (hstate : s.state = .registered) : s.Reconnects := by
  have hat := h.atState hstopped
  rw [AtState, hstate] at hat
  obtain ⟨hcontrol, hheartbeat, -⟩ := hat
  let later : RelayLink :=
    { s with
      now := s.now + (s.lastHeard + 1)
      calls := s.calls.step (.passes ((s.lastHeard + 1) * CallBack.second)) }
  let pinged : RelayLink := { later with timers := s.timers ++ [.pong s.generation later.now] }
  have hbeat : later.step .beat = pinged := by
    rw [RelayLink.step, RelayLink.beat]
    split
    next hnone => cases hheartbeat.symm.trans hnone
    next g hsome =>
      obtain rfl : s.generation = g := Option.some.inj (hheartbeat.symm.trans hsome)
      exact if_pos (by simp [later, hcontrol])
  have hlater : later.Sound := h.step (.tick (s.lastHeard + 1))
  have hpinged : pinged.Sound := hbeat ▸ hlater.step .beat
  have hpong : pinged.timers[s.timers.length]? = some (.pong s.generation later.now) := by
    rw [List.getElem?_append_right (le_refl _), Nat.sub_self]
    rfl
  refine Reconnects.cons (f := .tick (s.lastHeard + 1)) rfl (le_refl _) ?_
  refine Reconnects.cons (s := later) (f := .beat) rfl (by rw [hbeat]) (hbeat ▸ ?_)
  refine hpinged.reconnects_unreachable
    (t := { pinged with timers := pinged.timers.eraseIdx s.timers.length })
    (f := .fire s.timers.length) hstopped rfl rfl "no answer from the relay in 20 s" ?_
  rw [RelayLink.step, hpong]
  dsimp only
  have hmute : s.lastHeard < s.now + (s.lastHeard + 1) :=
    Nat.lt_of_lt_of_le (Nat.lt_succ_self _) (Nat.le_add_left _ _)
  exact if_pos (by simp [pinged, later, hmute])

/-- **Every link that is not done for good starts another attempt by its own timers.** -/
theorem Sound.reconnects (h : s.Sound) (hfinal : s.isFinal = false) : s.Reconnects := by
  have hstopped := stopped_of_isFinal hfinal
  have hat := h.atState hstopped
  cases hstate : s.state with
  | off => rw [AtState, hstate] at hat; exact hat.elim
  | connecting => exact h.reconnects_connecting hstopped hstate
  | registered => exact h.reconnects_registered hstopped hstate
  | failed => exact h.reconnects_failed hstopped hstate
  | conflict => simp [isFinal, hstate] at hfinal
  | versionMismatch => simp [isFinal, hstate] at hfinal

/-- The relay's good answers, after a connection is up. -/
def goodAnswers (g : ℕ) : List Event := [.ready g none, .hello g none true, .answer g none]

/-- A new connection is registered by the relay's good answers. -/
theorem registers_of_ready (hready : s.controls s.generation = some .ready) :
    (Run.after RelayLink.step s (goodAnswers s.generation)).state = .registered := by
  have hnow : s.step (.ready s.generation none) = s.setControl s.generation (some .hello) := by
    rw [step, if_pos hready, ready_none rfl]
  have hnext : (s.setControl s.generation (some .hello)).step (.hello s.generation none true)
      = s.setControl s.generation (some .answer) := by
    rw [step, if_pos (setControl_self _),
      hello_none (s := s.setControl s.generation _) (g := s.generation) rfl, if_pos rfl,
      setControl_setControl]
  rw [goodAnswers, Run.after_cons, Run.after_cons, Run.after_cons, Run.after_nil, hnow, hnext, step,
    if_pos (setControl_self _),
    answer_none (s := s.setControl s.generation _) (g := s.generation) rfl]

/-- **A link that is not done for good registers again**: wherever a run is, timers alone bring the
link to a new connection, and the relay's good answers register it. -/
theorem registers_again (es : List Event) (hfinal : (after es).isFinal = false) :
    ∃ fs : List Event, (∀ f ∈ fs, f.isOwn = true) ∧ ∃ g, (after es).generation < g ∧
      (after (es ++ fs)).control = some g ∧
      (after (es ++ fs ++ goodAnswers g)).state = .registered := by
  obtain ⟨fs, hfs, hlt, hstate, hready⟩ := (registration_after es).reconnects hfinal
  rw [after] at *
  refine ⟨fs, hfs, _, hlt, ?_, ?_⟩
  · rw [after, Run.after_append]
    exact ((Run.invariant (I := Sound) (fun _ e h => Sound.step h e) fs
      (registration_after es)).single _
      (hready ▸ Option.some_ne_none _))
  · rw [after, Run.after_append, Run.after_append]
    exact registers_of_ready hready

/-- A link whose connection died before the relay said anything. -/
theorem registers_again_mute : (after [.ready 1 none, .dies 1]).isFinal = false ∧
    ∃ fs : List Event, (∀ f ∈ fs, f.isOwn = true) ∧
      ∃ g, (after [.ready 1 none, .dies 1]).generation < g ∧
      (after ([.ready 1 none, .dies 1] ++ fs)).control = some g ∧
        (after ([.ready 1 none, .dies 1] ++ fs ++ goodAnswers g)).state = .registered :=
  ⟨rfl, registers_again _ rfl⟩

/-! ## The calls back of a link

They are kept apart from the registration, in `CallBacks`. -/

/-- Failing leaves the calls back alone. -/
@[simp] theorem calls_fail : (s.fail error).calls = s.calls := by
  unfold RelayLink.fail
  split <;> rfl

/-- So does closing. -/
@[simp] theorem calls_closing : s.closing.calls = s.calls := by
  rw [closing]
  split
  · exact calls_fail
  · rfl

/-- So does a failure. -/
@[simp] theorem calls_failed : (s.failed error).calls = s.calls := by
  rw [failed]
  split
  · rfl
  · rw [calls_fail, calls_closing]

/-- So does an attempt. -/
@[simp] theorem calls_connect : s.connect.calls = s.calls := calls_closing

/-- So does a connection that is ready. -/
theorem calls_ready (error : Option RelayError) : (s.ready g error).calls = s.calls := by
  cases error with
  | none =>
    unfold RelayLink.ready
    dsimp only
    split <;> rfl
  | some error =>
    unfold RelayLink.ready
    dsimp only
    split
    exacts [calls_failed, rfl]

/-- So does a challenge. -/
theorem calls_hello (error : Option RelayError) (signs : Bool) :
    (s.hello g error signs).calls = s.calls := by
  unfold RelayLink.hello
  dsimp only
  split
  case isFalse => rfl
  cases error with
  | none =>
    dsimp only
    split
    · rfl
    · exact calls_failed
  | some error => exact calls_failed

/-- So does an answer. -/
theorem calls_answer (error : Option RelayError) : (s.answer g error).calls = s.calls := by
  unfold RelayLink.answer
  dsimp only
  split
  case isFalse => rfl
  cases error with
  | none => rfl
  | some error => exact calls_failed

/-- A frame may bring a ticket. -/
theorem calls_frame (frame : Except RelayError Frame) (means : CallBacks.Means) :
    (s.frame g frame means).calls = s.calls ∨
      ∃ ticket, (s.frame g frame means).calls = s.calls.step (.incoming means ticket) := by
  unfold RelayLink.frame
  dsimp only
  split
  case isFalse => exact Or.inl rfl
  split
  · exact Or.inl calls_failed
  · exact Or.inl rfl
  next ticket => exact Or.inr ⟨ticket, rfl⟩
  · exact Or.inl rfl

/-- A closure of the link takes the book of calls back one step at most. -/
theorem calls_step (e : Event) :
    (s.step e).calls = s.calls ∨ ∃ c, (s.step e).calls = s.calls.step c := by
  cases e with
  | called i answer => exact Or.inr ⟨.answered i answer, rfl⟩
  | noteFinished means => exact Or.inr ⟨.noteFinished means, rfl⟩
  | frame g frame means =>
    rw [step]
    split
    case isFalse => exact Or.inl rfl
    rcases calls_frame frame means with h | ⟨ticket, h⟩
    · exact Or.inl h
    · exact Or.inr ⟨.incoming means ticket, h⟩
  | ready g error =>
    rw [step]
    split
    exacts [Or.inl (calls_ready error), Or.inl rfl]
  | hello g error signs =>
    rw [step]
    split
    exacts [Or.inl (calls_hello error signs), Or.inl rfl]
  | answer g error =>
    rw [step]
    split
    exacts [Or.inl (calls_answer error), Or.inl rfl]
  | dies g =>
    rw [step]
    split <;> exact Or.inl rfl
  | fire i =>
    refine Or.inl ?_
    rw [step]
    split
    next => rfl
    next t hi =>
      cases t <;> rw [RelayLink.fire] <;> split <;>
        first | rfl | exact calls_failed | exact calls_connect
  | beat =>
    refine Or.inl ?_
    rw [step, beat]
    split
    next => rfl
    next => split <;> rfl
  | pathChanged interfaces =>
    refine Or.inl ?_
    rw [step, pathChanged]
    split
    exacts [calls_connect, rfl]
  | register =>
    refine Or.inl ?_
    rw [step, register]
    split
    exacts [calls_connect, rfl]
  | stop => exact Or.inl rfl
  | tick seconds => exact Or.inr ⟨.passes (seconds * CallBack.second), rfl⟩

/-- The calls back of a link are a run of the book. -/
theorem calls_after (es : List Event) : ∃ cs, (after es).calls = CallBacks.after cs := by
  refine Run.invariant (I := fun t : RelayLink => ∃ cs, t.calls = CallBacks.after cs)
    (fun t e h => ?_) es
    ⟨[], calls_connect⟩
  obtain ⟨cs, hcs⟩ := h
  rcases calls_step (s := t) e with hsame | ⟨c, hc⟩
  · exact ⟨cs, hsame.trans hcs⟩
  · refine ⟨cs ++ [c], hc.trans ?_⟩
    rw [hcs, CallBacks.after, CallBacks.after, Run.after_append]
    rfl

end RelayLink
