import IGhostVT.Remote.PairedHostFile

/-!
# Remote/SharedPairings — no pairing is lost between processes

Whoever writes the file has the directory's lock from its last look at the file on, so each change
is made to what the change before left (`Kept`).  A cache that has no event to handle is the file
(`Follows.current`), because each write is an event for every watch.

Two things break that.  The first load reads the file and only then starts the watch: a write
between the two is an event for nobody, and the cache stays what it was (`missed_write`).  And a
file that cannot be read, or is too long to be, is read as no hosts, from which the next change
starts.
-/

open PairedHostFile

namespace PairedHosts

variable {ι : Type} (w : Platform)

/-! ## What is to hold -/

/-- The hosts in the file, however long it is. -/
def held : Entry → List PairedRemoteHost
  | .file f => hostsOf w f.data
  | .missing | .irregular => []

/-- Hosts as the file holds them: in the order of their names, with the addresses it keeps. -/
def arranged (hosts : List PairedRemoteHost) : List PairedRemoteHost :=
  (sorted w hosts).map (keepIPv4 w)

theorem perm_arranged (hosts : List PairedRemoteHost) :
    (arranged w hosts).Perm (hosts.map (keepIPv4 w)) :=
  (List.mergeSort_perm _ _).map _

/-- **Every change is kept**: what is at the file's name now is what the last attempt left, which is
its change of the hosts there were when it took the lock, or what there was then when it was not
written; and that was left by the attempt before. -/
def Kept (first : Entry) : List (Attempt ι) → Entry → Prop
  | [], entry => entry = first
  | a :: earlier, entry =>
    entry = a.after ∧ Kept first earlier a.base ∧
      if a.isWritten then
        ∃ hosts, a.change (held w a.base) = some hosts ∧ held w a.after = arranged w hosts
      else a.after = a.base

/-- `p` wrote the file of this stamp. -/
def Wrote (attempts : List (Attempt ι)) (p : ι) (stamp : Option Stamp) : Prop :=
  ∃ a ∈ attempts, a.author = some p ∧ a.isWritten = true ∧ PairedHostFile.stamp a.after = stamp

/-- **What the processes are promised**: changes are kept, nobody hears of its own, and a cache with
nothing to handle is the file. -/
structure Shared (first : Entry) (s : PairedHosts ι) : Prop where
  kept : Kept w first s.directory.attempts s.directory.entry
  announced : ∀ call ∈ s.directory.announced, ¬ Wrote s.directory.attempts call.1 call.2
  current : ∀ p, (s.caches p).phase = .idle → (s.caches p).isEventDue = false →
    ∀ hosts ∈ (s.caches p).cache, hosts = held w s.directory.entry

/-! ## What is asked of a step -/

/-- How the read goes that the step makes. -/
def reading (s : PairedHosts ι) : Action ι → Option ReadOutcome
  | .start p _ outcome =>
    match (s.caches p).phase, (s.caches p).cache with
    | .idle, none => some outcome
    | _, _ => none
  | .check p outcome =>
    match (s.caches p).phase with
    | .locked _ _ =>
      if stamp s.directory.entry ≠ (s.caches p).cacheStamp then some outcome else none
    | _ => none
  | .readBack p outcome =>
    match (s.caches p).phase with
    | .written _ => some outcome
    | _ => none
  | .notice p outcome =>
    match (s.caches p).phase with
    | .noticing => some outcome
    | _ => none
  | _ => none

/-- The file is not too long to be read. -/
def Fits : Entry → Prop
  | .file f => f.data.length ≤ maximumFileByteCount
  | .missing | .irregular => True

/-- A file that is read can be, and is read to its end. -/
def ReadsWhole (s : PairedHosts ι) (a : Action ι) : Prop :=
  ∀ outcome ∈ reading s a, outcome = .complete ∧ Fits s.directory.entry

/-- The first load has yet to watch. -/
def isLoaded : PairedHostCache.Phase → Bool
  | .loaded _ => true
  | _ => false

/-- A watch starts, and before another write. -/
def WatchesInTime (s : PairedHosts ι) : Action ι → Prop
  | .watch p isOpened =>
    isLoaded (s.caches p).phase →
      isOpened = true ∧ (s.caches p).cacheStamp = stamp s.directory.entry
  | _ => True

/-- The stamp of a file that is renamed is no earlier file's. -/
def Fresh (s : PairedHosts ι) : Action ι → Prop
  | .write _ (some stamp) | .writeOther _ (some stamp) => ∀ f ∈ s.directory.past, f.stamp ≠ stamp
  | _ => True

instance : ∀ phase : PairedHostCache.Phase, Decidable (phase = .idle)
  | .idle => .isTrue rfl
  | .loaded _ | .modifying _ | .locked _ _ | .checked _ _ | .written _ | .noticing => .isFalse nofun

instance : ∀ entry : Entry, Decidable (Fits entry)
  | .file f => inferInstanceAs (Decidable (f.data.length ≤ maximumFileByteCount))
  | .missing | .irregular => .isTrue trivial

instance (s : PairedHosts ι) (a : Action ι) : Decidable (ReadsWhole s a) :=
  inferInstanceAs
    (Decidable (∀ outcome ∈ reading s a, outcome = .complete ∧ Fits s.directory.entry))

instance (s : PairedHosts ι) : ∀ a : Action ι, Decidable (WatchesInTime s a)
  | .watch p isOpened =>
    inferInstanceAs (Decidable (isLoaded (s.caches p).phase →
      isOpened = true ∧ (s.caches p).cacheStamp = stamp s.directory.entry))
  | .start _ _ _ | .lock _ _ | .check _ _ | .write _ _ | .readBack _ _ | .event _ | .notice _ _
  | .lockOther | .writeOther _ _ | .unlockOther | .touch => .isTrue trivial

instance (s : PairedHosts ι) : ∀ a : Action ι, Decidable (Fresh s a)
  | .write _ (some stamp) | .writeOther _ (some stamp) =>
    inferInstanceAs (Decidable (∀ f ∈ s.directory.past, f.stamp ≠ stamp))
  | .write _ none | .writeOther _ none | .start _ _ _ | .watch _ _ | .lock _ _ | .check _ _
  | .readBack _ _ | .event _ | .notice _ _ | .lockOther | .unlockOther | .touch => .isTrue trivial

/-! ## The invariant -/

variable {w}

/-- What holds of the directory. -/
structure Sound (first : Entry) (d : Directory ι) : Prop where
  present : ∀ f, d.entry = .file f → f ∈ d.past
  stamps : ∀ f ∈ d.past, ∀ g ∈ d.past, f.stamp = g.stamp → f = g
  kept : Kept w first d.attempts d.entry
  wrote : ∀ p stamp, Wrote d.attempts p stamp → ∃ f ∈ d.past, stamp = some f.stamp
  announced : ∀ call ∈ d.announced,
    ¬ Wrote d.attempts call.1 call.2 ∧ ∀ stamp ∈ call.2, ∃ f ∈ d.past, f.stamp = stamp
  other : ∀ base, d.lock = some (.other base) → base = d.entry

/-- What a cache knows of the file: its stamp, and the hosts of that stamp. -/
def Knows (d : Directory ι) (c : PairedHostCache) : Prop :=
  ∀ hosts ∈ c.cache, (c.cacheStamp = none ∧ hosts = []) ∨
    ∃ f ∈ d.past, c.cacheStamp = some f.stamp ∧ hosts = hostsOf w f.data

/-- Neither in its first load nor after a file it has yet to read. -/
def Settled : PairedHostCache.Phase → Prop
  | .idle | .modifying _ | .locked _ _ | .checked _ _ => True
  | .loaded _ | .written _ | .noticing => False

/-- What holds of a cache by what it is in the middle of. -/
def InPhase (d : Directory ι) (p : ι) (c : PairedHostCache) : PairedHostCache.Phase → Prop
  | .idle => True
  | .loaded _ | .modifying _ => c.cache ≠ none
  | .locked _ base => c.cache ≠ none ∧ d.lock = some (.cache p) ∧ base = d.entry
  | .checked _ base =>
    c.cache ≠ none ∧ d.lock = some (.cache p) ∧ base = d.entry ∧ c.cacheStamp = stamp d.entry
  | .written written => c.watcher = true ∧ d.lock = some (.cache p) ∧ stamp d.entry = some written
  | .noticing => c.watcher = true ∧ ¬ Wrote d.attempts p (stamp d.entry)

/-- **What holds of a cache**: it knows what it has; with a watch and no event, that is the file;
and a file of its own is the one it has. -/
structure Follows (d : Directory ι) (p : ι) (c : PairedHostCache) : Prop where
  knows : Knows (w := w) d c
  phase : InPhase d p c c.phase
  watches : Settled c.phase → c.cache ≠ none → c.watcher = true
  due : c.isEventDue = true → c.watcher = true
  current : c.watcher = true → c.isEventDue = false → Settled c.phase → c.cacheStamp = stamp d.entry
  own : (∀ written, c.phase ≠ .written written) → Wrote d.attempts p (stamp d.entry) →
    c.cacheStamp = stamp d.entry

variable {first : Entry} {d d' : Directory ι} {p q : ι} {c : PairedHostCache}

/-! ## Reading and writing -/

theorem read_whole {entry : Entry} (hfits : Fits entry) :
    read w entry .complete = (held w entry, stamp entry) := by
  cases entry with
  | missing => rfl
  | irregular => rfl
  | file f =>
    have hlong : ¬ (ReadOutcome.complete = .notOpened ∨ f.data.length > maximumFileByteCount) := by
      rintro (h | h)
      · cases h
      · exact absurd hfits (not_le.mpr h)
    exact (if_neg hlong).trans (if_neg nofun)

/-- A file that is written holds the hosts. -/
theorem held_write {hosts : List PairedRemoteHost} {renamed : Option Stamp} {file : File}
    (h : PairedHostFile.write w hosts renamed = some file) :
    held w (.file file) = arranged w hosts ∧ renamed = some file.stamp := by
  unfold PairedHostFile.write at h
  split at h
  case h_1 data stamp hencode =>
    cases h
    refine ⟨?_, rfl⟩
    rw [held, hostsOf, w.decode_encode _ _ hencode]
    rfl
  case h_2 => cases h

/-- What is known under the file's own stamp is the file. -/
theorem eq_held (hsound : Sound (w := w) first d) (hknows : Knows (w := w) d c)
    (hstamp : c.cacheStamp = stamp d.entry) : ∀ hosts ∈ c.cache, hosts = held w d.entry := by
  intro hosts hhosts
  rcases hknows hosts hhosts with ⟨hnone, rfl⟩ | ⟨f, hf, hsome, rfl⟩
  · cases hentry : d.entry with
    | missing => rfl
    | irregular => rfl
    | file g =>
      rw [hnone, hentry] at hstamp
      cases hstamp
  · cases hentry : d.entry with
    | missing => rw [hsome, hentry] at hstamp; cases hstamp
    | irregular => rw [hsome, hentry] at hstamp; cases hstamp
    | file g =>
      rw [hsome, hentry] at hstamp
      rw [hsound.stamps f hf g (hsound.present g hentry) (Option.some.inj hstamp)]
      rfl

theorem wrote_cons {a : Attempt ι} {attempts : List (Attempt ι)} {stamp : Option Stamp} :
    Wrote (a :: attempts) p stamp ↔
      (a.author = some p ∧ a.isWritten = true ∧ PairedHostFile.stamp a.after = stamp) ∨
        Wrote attempts p stamp := by
  simp only [Wrote, List.exists_mem_cons_iff]

/-! ## The directory changes -/

/-- The lock passes, and the file stays. -/
theorem Sound.relock (h : Sound (w := w) first d) {lock : Option (LockHolder ι)}
    (hlock : ∀ base, lock = some (.other base) → base = d.entry) :
    Sound (w := w) first { d with lock := lock } :=
  { h with other := hlock }

/-- A change that was not written. -/
theorem Sound.fail (h : Sound (w := w) first d) (author : Option ι) (change : HostChange) :
    Sound (w := w) first
      { d with attempts := ⟨author, change, d.entry, d.entry, false⟩ :: d.attempts } where
  present := h.present
  stamps := h.stamps
  kept := ⟨rfl, h.kept, rfl⟩
  wrote p stamp hwrote := by
    rcases wrote_cons.mp hwrote with ⟨-, hfalse, -⟩ | hwrote
    · cases hfalse
    · exact h.wrote p stamp hwrote
  announced call hcall := by
    refine ⟨fun hwrote => ?_, (h.announced call hcall).2⟩
    rcases wrote_cons.mp hwrote with ⟨-, hfalse, -⟩ | hwrote
    · cases hfalse
    · exact (h.announced call hcall).1 hwrote
  other := h.other

/-- A file that was renamed to the name, with its change made to the one before. -/
theorem Sound.rename (h : Sound (w := w) first d) {file : File} {change : HostChange}
    {hosts : List PairedRemoteHost} {lock : Option (LockHolder ι)} (author : Option ι)
    (hfresh : ∀ f ∈ d.past, f.stamp ≠ file.stamp) (hchange : change (held w d.entry) = some hosts)
    (hheld : held w (.file file) = arranged w hosts) (hlock : ∀ base, lock ≠ some (.other base)) :
    Sound (w := w) first
      { d with
        entry := .file file, past := file :: d.past, lock := lock,
        attempts := ⟨author, change, d.entry, .file file, true⟩ :: d.attempts } where
  present f hf := by
    cases hf
    exact List.mem_cons_self
  stamps f hf g hg heq := by
    rcases List.mem_cons.mp hf with hnew | hold <;> rcases List.mem_cons.mp hg with hnew' | hold'
    · rw [hnew, hnew']
    · exact absurd (hnew ▸ heq.symm) (hfresh g hold')
    · exact absurd (hnew' ▸ heq) (hfresh f hold)
    · exact h.stamps f hold g hold' heq
  kept := ⟨rfl, h.kept, hosts, hchange, hheld⟩
  wrote p stamp hwrote := by
    rcases wrote_cons.mp hwrote with ⟨-, -, rfl⟩ | hwrote
    · exact ⟨file, List.mem_cons_self, rfl⟩
    · obtain ⟨f, hf, heq⟩ := h.wrote p stamp hwrote
      exact ⟨f, List.mem_cons_of_mem _ hf, heq⟩
  announced call hcall := by
    obtain ⟨hnot, hpast⟩ := h.announced call hcall
    constructor
    · intro hwrote
      rcases wrote_cons.mp hwrote with ⟨-, -, heq⟩ | hwrote
      · obtain ⟨f, hf, hstamp⟩ := hpast file.stamp heq.symm
        exact hfresh f hf hstamp
      · exact hnot hwrote
    · intro stamp hstamp
      obtain ⟨f, hf, heq⟩ := hpast stamp hstamp
      exact ⟨f, List.mem_cons_of_mem _ hf, heq⟩
  other base hbase := absurd hbase (hlock base)

/-! ## A cache while the directory changes -/

/-- The file stays what it was, and with it what the cache knows. -/
theorem Follows.of_same (h : Follows (w := w) d p c) (hentry : d'.entry = d.entry)
    (hpast : d'.past = d.past)
    (hwrote : ∀ stamp, Wrote d'.attempts p stamp → Wrote d.attempts p stamp)
    (hphase : InPhase d' p c c.phase) : Follows (w := w) d' p c where
  knows := by rw [Knows, hpast]; exact h.knows
  phase := hphase
  watches := h.watches
  due := h.due
  current := by rw [hentry]; exact h.current
  own hnot hown := by
    rw [hentry] at hown ⊢
    exact h.own hnot (hwrote _ hown)

/-- A cache keeps the directory's lock for as long as its phase asks for it. -/
theorem InPhase.of_same {phase : PairedHostCache.Phase} (h : InPhase d p c phase)
    (hentry : d'.entry = d.entry)
    (hwrote : ∀ stamp, Wrote d'.attempts p stamp → Wrote d.attempts p stamp)
    (hlock : d.lock = some (.cache p) → d'.lock = some (.cache p)) : InPhase d' p c phase := by
  cases phase with
  | idle | loaded | modifying => exact h
  | locked change base => exact ⟨h.1, hlock h.2.1, h.2.2.trans hentry.symm⟩
  | checked change base =>
    exact ⟨h.1, hlock h.2.1, h.2.2.1.trans hentry.symm, by rw [hentry, h.2.2.2]⟩
  | written written => exact ⟨h.1, hlock h.2.1, by rw [hentry, h.2.2]⟩
  | noticing =>
    refine ⟨h.1, fun hnew => h.2 ?_⟩
    rw [hentry] at hnew
    exact hwrote _ hnew

/-- The lock passes between others. -/
theorem Follows.relock (h : Follows (w := w) d p c) {lock : Option (LockHolder ι)}
    (hlock : d.lock ≠ some (.cache p)) : Follows (w := w) { d with lock := lock } p c :=
  h.of_same rfl rfl (fun _ h => h)
    (h.phase.of_same rfl (fun _ h => h) fun hheld => absurd hheld hlock)

/-- A change was not written. -/
theorem Follows.fail (h : Follows (w := w) d p c) (author : Option ι) (change : HostChange)
    (base after : Entry) :
    Follows (w := w) { d with attempts := ⟨author, change, base, after, false⟩ :: d.attempts } p
      c := by
  have hwrote : ∀ stamp, Wrote (⟨author, change, base, after, false⟩ :: d.attempts) p stamp →
      Wrote d.attempts p stamp := fun stamp hwrote =>
    (wrote_cons.mp hwrote).resolve_left fun hnew => Bool.noConfusion hnew.2.1
  exact h.of_same rfl rfl hwrote (h.phase.of_same rfl hwrote fun hheld => hheld)

theorem raise_fields (c : PairedHostCache) :
    (raise c).cache = c.cache ∧ (raise c).cacheStamp = c.cacheStamp ∧ (raise c).watcher = c.watcher
      ∧ (raise c).phase = c.phase := by
  unfold raise
  split <;> exact ⟨rfl, rfl, rfl, rfl⟩

theorem isEventDue_raise (h : c.watcher = true) : (raise c).isEventDue = true := by
  rw [raise, if_pos h]

/-- An event for the watch changes nothing but that there is one. -/
theorem Follows.raise (h : Follows (w := w) d p c) : Follows (w := w) d p (raise c) := by
  unfold PairedHosts.raise
  split
  case isTrue hwatcher => exact { h with due := fun _ => hwatcher, current := nofun }
  case isFalse => exact h

/-- Another's file is renamed to the name. -/
theorem Follows.rename (hsound : Sound (w := w) first d) (h : Follows (w := w) d p c) {file : File}
    {change : HostChange} {base : Entry} {lock : Option (LockHolder ι)} {author : Option ι}
    (hauthor : author ≠ some p) (hfresh : ∀ f ∈ d.past, f.stamp ≠ file.stamp)
    (hlock : d.lock ≠ some (.cache p)) :
    Follows (w := w)
      { d with
        entry := .file file, past := file :: d.past, lock := lock,
        attempts := ⟨author, change, base, .file file, true⟩ :: d.attempts } p
      (PairedHosts.raise c) := by
  obtain ⟨hcache, hstamp, hwatcher, hphase⟩ := raise_fields c
  have hnot : ¬ Wrote (⟨author, change, base, .file file, true⟩ :: d.attempts) p
      (some file.stamp) := by
    intro hwrote
    rcases wrote_cons.mp hwrote with ⟨hmine, -, -⟩ | hwrote
    · exact hauthor hmine
    · obtain ⟨f, hf, heq⟩ := hsound.wrote p _ hwrote
      exact hfresh f hf (Option.some.inj heq).symm
  refine ⟨?_, ?_, ?_, ?_, ?_, fun _ hwrote => absurd hwrote hnot⟩
  · intro hosts hhosts
    rw [hcache] at hhosts
    rw [hstamp]
    exact (h.knows hosts hhosts).imp_right fun ⟨f, hf, heq⟩ => ⟨f, List.mem_cons_of_mem _ hf, heq⟩
  · rw [hphase]
    have hin := h.phase
    cases hkind : c.phase with
    | idle => trivial
    | loaded next => rw [hkind] at hin; exact fun hnone => hin (hcache.symm.trans hnone)
    | modifying change' => rw [hkind] at hin; exact fun hnone => hin (hcache.symm.trans hnone)
    | locked change' base' => rw [hkind] at hin; exact absurd hin.2.1 hlock
    | checked change' base' => rw [hkind] at hin; exact absurd hin.2.1 hlock
    | written written => rw [hkind] at hin; exact absurd hin.2.1 hlock
    | noticing => rw [hkind] at hin; exact ⟨hwatcher.trans hin.1, hnot⟩
  · rw [hphase, hcache, hwatcher]
    exact h.watches
  · rw [hwatcher]
    intro hdue
    by_contra hoff
    rw [PairedHosts.raise, if_neg hoff] at hdue
    exact hoff (h.due hdue)
  · intro hon hdue
    rw [hwatcher] at hon
    rw [isEventDue_raise hon] at hdue
    cases hdue

/-! ## A cache's own steps -/

/-- A phase follows another, with nothing read. -/
theorem Follows.rephase (h : Follows (w := w) d p c) (hsettled : Settled c.phase)
    {phase : PairedHostCache.Phase} (hin : InPhase d p c phase) :
    Follows (w := w) d p { c with phase := phase } where
  knows := h.knows
  phase := by cases phase <;> exact hin
  watches _ := h.watches hsettled
  due := h.due
  current hwatcher hdue _ := h.current hwatcher hdue hsettled
  own _ := h.own fun written hphase => by rw [hphase] at hsettled; exact hsettled

/-- The file is read. -/
theorem Follows.refresh (hsound : Sound (w := w) first d) (h : Follows (w := w) d p c)
    {phase : PairedHostCache.Phase}
    (hin : InPhase d p { c with
      cache := some (held w d.entry), cacheStamp := stamp d.entry, phase := phase } phase)
    (hwatcher : Settled phase → c.watcher = true) :
    Follows (w := w) d p { c with
      cache := some (held w d.entry), cacheStamp := stamp d.entry, phase := phase } where
  knows hosts hhosts := by
    cases hhosts
    cases hentry : d.entry with
    | missing => exact .inl ⟨rfl, rfl⟩
    | irregular => exact .inl ⟨rfl, rfl⟩
    | file f => exact .inr ⟨f, hsound.present f hentry, rfl, rfl⟩
  phase := hin
  watches hsettled _ := hwatcher hsettled
  due := h.due
  current _ _ _ := rfl
  own _ _ := rfl

/-- The file is replaced by the cache itself. -/
theorem Follows.written (h : Follows (w := w) d p c) (hcache : c.cache ≠ none)
    (hsettled : Settled c.phase) (hlock : d.lock = some (.cache p)) {file : File}
    {attempts : List (Attempt ι)} :
    Follows (w := w)
      { d with entry := .file file, past := file :: d.past, attempts := attempts } p
      (PairedHosts.raise { c with phase := .written file.stamp }) := by
  have hwatcher := h.watches hsettled hcache
  rw [PairedHosts.raise, if_pos hwatcher]
  refine ⟨fun hosts hhosts => ?_, ⟨hwatcher, hlock, rfl⟩, fun _ _ => hwatcher, fun _ => hwatcher,
    nofun, fun hnot => absurd rfl (hnot file.stamp)⟩
  exact (h.knows hosts hhosts).imp_right fun ⟨f, hf, heq⟩ => ⟨f, List.mem_cons_of_mem _ hf, heq⟩

variable (w)

/-- The invariant of a run. -/
structure Inv (first : Entry) (s : PairedHosts ι) : Prop where
  sound : Sound (w := w) first s.directory
  follows : ∀ p, Follows (w := w) s.directory p (s.caches p)

variable {w} [DecidableEq ι] {s : PairedHosts ι}

/-- One cache changes, and what it does to the directory the others stand. -/
theorem Inv.of_set (hsound : Sound (w := w) first d') (hown : Follows (w := w) d' p c)
    (hother : ∀ q, q ≠ p → Follows (w := w) d' q (s.caches q)) :
    Inv w first { directory := d', caches := Function.update s.caches p c } where
  sound := hsound
  follows q := by
    dsimp only
    by_cases hq : q = p
    · subst hq
      rw [Function.update_self]
      exact hown
    · rw [Function.update_of_ne hq]
      exact hother q hq

/-- A cache changes alone. -/
theorem Inv.set (h : Inv w first s) (hown : Follows (w := w) s.directory p c) :
    Inv w first (s.set p c) :=
  .of_set h.sound hown fun q _ => h.follows q

theorem Inv.start (h : Inv w first s) {change : Option HostChange} {outcome : ReadOutcome}
    (hwhole : ReadsWhole s (.start p change outcome)) :
    Inv w first (s.start w p change outcome) := by
  have hfollows := h.follows p
  unfold PairedHosts.start
  split
  case h_1 => exact h
  case h_2 hphase hcache =>
    exact h.set (hfollows.rephase (by rw [hphase]; trivial) (by rw [InPhase, hcache]; nofun))
  case h_3 hphase hcache =>
    obtain ⟨rfl, hfits⟩ := hwhole outcome (by rw [reading, hphase, hcache]; rfl)
    rw [read_whole hfits]
    exact h.set (hfollows.refresh h.sound nofun nofun)
  case h_4 => exact h

theorem Inv.watch (h : Inv w first s) {isOpened : Bool}
    (hintime : WatchesInTime s (.watch p isOpened)) : Inv w first (s.watch p isOpened) := by
  have hfollows := h.follows p
  unfold PairedHosts.watch
  split
  case h_2 => exact h
  case h_1 change hphase =>
    obtain ⟨rfl, hstamp⟩ := hintime (by rw [hphase]; rfl)
    have hcache := hfollows.phase
    rw [hphase] at hcache
    have hown := hfollows.own fun written heq => by rw [hphase] at heq; cases heq
    refine h.set ⟨hfollows.knows, ?_, fun _ _ => rfl, fun _ => rfl, fun _ _ _ => hstamp,
      fun _ => hown⟩
    cases change with
    | none => trivial
    | some change => exact hcache

theorem Inv.lock (h : Inv w first s) (isLocked : Bool) : Inv w first (s.lock p isLocked) := by
  have hfollows := h.follows p
  unfold PairedHosts.lock
  split
  case h_1 change hphase hfree =>
    have hcache := hfollows.phase
    rw [hphase] at hcache
    have hlocked : Follows (w := w) { s.directory with lock := some (.cache p) } p (s.caches p) :=
      hfollows.relock (by rw [hfree]; nofun)
    refine .of_set (h.sound.relock nofun)
      (hlocked.rephase (by rw [hphase]; trivial) ⟨hcache, rfl, rfl⟩) fun q _ => ?_
    exact (h.follows q).relock (by rw [hfree]; nofun)
  case h_2 change hphase =>
    exact .of_set (h.sound.fail _ _)
      ((hfollows.fail _ _ _ _).rephase (by rw [hphase]; trivial) trivial)
      fun q _ => (h.follows q).fail _ _ _ _
  case h_3 => exact h

theorem Inv.check (h : Inv w first s) {outcome : ReadOutcome}
    (hwhole : ReadsWhole s (.check p outcome)) : Inv w first (s.check w p outcome) := by
  have hfollows := h.follows p
  unfold PairedHosts.check
  split
  case h_2 => exact h
  case h_1 change base hphase =>
    have hin := hfollows.phase
    rw [hphase] at hin
    obtain ⟨hcache, hlock, hbase⟩ := hin
    have hsettled : Settled (s.caches p).phase := by rw [hphase]; trivial
    split
    case isTrue hother =>
      obtain ⟨rfl, hfits⟩ := hwhole outcome (by rw [reading, hphase]; exact if_pos hother)
      rw [read_whole hfits]
      exact h.set (hfollows.refresh h.sound ⟨nofun, hlock, hbase, rfl⟩
        fun _ => hfollows.watches hsettled hcache)
    case isFalse hsame =>
      exact h.set (hfollows.rephase hsettled ⟨hcache, hlock, hbase, (not_not.mp hsame).symm⟩)

theorem Inv.write (h : Inv w first s) {renamed : Option Stamp}
    (hfresh : Fresh s (.write p renamed)) : Inv w first (s.write w p renamed) := by
  have hfollows := h.follows p
  unfold PairedHosts.write
  split
  case h_2 => exact h
  case h_1 change base hphase =>
    have hin := hfollows.phase
    rw [hphase] at hin
    obtain ⟨hcache, hlock, rfl, hstamp⟩ := hin
    have hsettled : Settled (s.caches p).phase := by rw [hphase]; trivial
    have hothers : ∀ q, q ≠ p → s.directory.lock ≠ some (.cache q) := by
      intro q hq heq
      rw [hlock] at heq
      cases heq
      exact hq rfl
    -- Without the lock the cache is idle, and the others see the lock alone go.
    have hidle : Inv w first
        ((s.set p { s.caches p with phase := .idle }).relock none) := by
      have hrest : Follows (w := w) s.directory p { s.caches p with phase := .idle } :=
        hfollows.rephase hsettled trivial
      have hown : Follows (w := w) { s.directory with lock := none } p
          { s.caches p with phase := .idle } :=
        hrest.of_same rfl rfl (fun _ hwrote => hwrote) trivial
      exact .of_set (h.sound.relock nofun) hown fun q hq => (h.follows q).relock (hothers q hq)
    dsimp only
    split
    case h_1 => exact hidle
    case h_2 hosts hchange =>
      split
      case h_1 => exact ⟨hidle.sound.fail _ _, fun q => (hidle.follows q).fail _ _ _ _⟩
      case h_2 file hwrite =>
        obtain ⟨hheld, rfl⟩ := held_write hwrite
        have hmade : change (held w s.directory.entry) = some hosts := by
          obtain ⟨cached, hcached⟩ := Option.ne_none_iff_exists'.mp hcache
          rw [hcached, Option.getD_some] at hchange
          rw [← eq_held h.sound hfollows.knows hstamp cached hcached]
          exact hchange
        have hmine : ∀ base, s.directory.lock ≠ some (.other base) := fun base => by
          rw [hlock]
          nofun
        refine ⟨h.sound.rename _ hfresh hmade hheld hmine, fun q => ?_⟩
        change Follows _ q (raise (Function.update s.caches p _ q))
        by_cases hq : q = p
        · subst hq
          rw [Function.update_self]
          exact hfollows.written hcache hsettled hlock
        · rw [Function.update_of_ne hq]
          exact (h.follows q).rename h.sound (fun heq => hq (Option.some.inj heq).symm) hfresh
            (hothers q hq)

theorem Inv.readBack (h : Inv w first s) {outcome : ReadOutcome}
    (hwhole : ReadsWhole s (.readBack p outcome)) : Inv w first (s.readBack w p outcome) := by
  have hfollows := h.follows p
  unfold PairedHosts.readBack
  split
  case h_2 => exact h
  case h_1 written hphase =>
    have hin := hfollows.phase
    rw [hphase] at hin
    obtain ⟨hwatcher, hlock, hstamp⟩ := hin
    obtain ⟨rfl, hfits⟩ := hwhole outcome (by rw [reading, hphase]; rfl)
    rw [read_whole hfits, ← hstamp]
    have hread : Follows (w := w) s.directory p { s.caches p with
        cache := some (held w s.directory.entry), cacheStamp := stamp s.directory.entry,
        phase := .idle } :=
      hfollows.refresh h.sound trivial fun _ => hwatcher
    refine .of_set (h.sound.relock nofun) (hread.of_same rfl rfl (fun _ hwrote => hwrote) trivial)
      fun q hq => (h.follows q).relock fun heq => ?_
    rw [hlock] at heq
    cases heq
    exact hq rfl

theorem Inv.event (h : Inv w first s) (p : ι) : Inv w first (s.event p) := by
  have hfollows := h.follows p
  unfold PairedHosts.event
  split
  case h_2 => exact h
  case h_1 hphase =>
    split
    case isFalse => exact h
    case isTrue hdue =>
      have hwatcher := hfollows.due hdue
      have hown := hfollows.own fun written heq => by rw [hphase] at heq; cases heq
      refine h.set ⟨hfollows.knows, ?_, fun _ _ => hwatcher, nofun, ?_, fun _ => hown⟩
      · split
        case isTrue hother => exact ⟨hwatcher, fun hwrote => hother (hown hwrote).symm⟩
        case isFalse => trivial
      · intro _ _ hsettled
        split at hsettled
        case isTrue => exact hsettled.elim
        case isFalse hsame => exact (not_not.mp hsame).symm

theorem Inv.notice (h : Inv w first s) {outcome : ReadOutcome}
    (hwhole : ReadsWhole s (.notice p outcome)) : Inv w first (s.notice w p outcome) := by
  have hfollows := h.follows p
  unfold PairedHosts.notice
  split
  case h_2 => exact h
  case h_1 hphase =>
    have hin := hfollows.phase
    rw [hphase] at hin
    obtain ⟨hwatcher, hnot⟩ := hin
    obtain ⟨rfl, hfits⟩ := hwhole outcome (by rw [reading, hphase]; rfl)
    rw [read_whole hfits]
    have hread : Follows (w := w) s.directory p { s.caches p with
        cache := some (held w s.directory.entry), cacheStamp := stamp s.directory.entry,
        phase := .idle } :=
      hfollows.refresh h.sound trivial fun _ => hwatcher
    have hnext := h.set hread
    dsimp only
    split
    case isFalse => exact hnext
    case isTrue =>
      have hsound : Sound (w := w) first { s.directory with
          announced := (p, stamp s.directory.entry) :: s.directory.announced } := by
        refine { h.sound with announced := fun call hcall => ?_ }
        rcases List.mem_cons.mp hcall with rfl | hcall
        · refine ⟨hnot, fun stamp hstamp => ?_⟩
          cases hentry : s.directory.entry with
          | missing => rw [hentry] at hstamp; cases hstamp
          | irregular => rw [hentry] at hstamp; cases hstamp
          | file f =>
            rw [hentry] at hstamp
            exact ⟨f, h.sound.present f hentry, Option.some.inj hstamp⟩
        · exact h.sound.announced call hcall
      have hsame : ∀ {q c}, Follows (w := w) s.directory q c →
          Follows (w := w) { s.directory with
            announced := (p, stamp s.directory.entry) :: s.directory.announced } q c :=
        fun hq => hq.of_same rfl rfl (fun _ hwrote => hwrote)
          (hq.phase.of_same rfl (fun _ hwrote => hwrote) fun hlock => hlock)
      exact ⟨hsound, fun q => hsame (hnext.follows q)⟩

omit [DecidableEq ι] in
theorem Inv.lockOther (h : Inv w first s) : Inv w first s.lockOther := by
  unfold PairedHosts.lockOther
  split
  case h_2 => exact h
  case h_1 hfree =>
    have hfollows : ∀ q, s.directory.lock ≠ some (.cache q) := fun q => by rw [hfree]; nofun
    refine ⟨h.sound.relock fun base hbase => ?_, fun q => (h.follows q).relock (hfollows q)⟩
    cases hbase
    rfl

omit [DecidableEq ι] in
theorem Inv.writeOther (h : Inv w first s) {hosts : List PairedRemoteHost}
    {renamed : Option Stamp} (hfresh : Fresh s (.writeOther hosts renamed)) :
    Inv w first (s.writeOther w hosts renamed) := by
  unfold PairedHosts.writeOther
  split
  case h_2 => exact h
  case h_1 base hlock =>
    obtain rfl := h.sound.other base hlock
    have hothers : ∀ q, s.directory.lock ≠ some (.cache q) := fun q => by rw [hlock]; nofun
    have hfree : Inv w first (s.relock none) :=
      ⟨h.sound.relock nofun, fun q => (h.follows q).relock (hothers q)⟩
    dsimp only
    split
    case h_1 => exact ⟨hfree.sound.fail _ _, fun q => (hfree.follows q).fail _ _ _ _⟩
    case h_2 file hwrite =>
      obtain ⟨hheld, rfl⟩ := held_write hwrite
      exact ⟨h.sound.rename _ hfresh rfl hheld nofun,
        fun q => (h.follows q).rename h.sound nofun hfresh (hothers q)⟩

omit [DecidableEq ι] in
theorem Inv.unlockOther (h : Inv w first s) : Inv w first s.unlockOther := by
  unfold PairedHosts.unlockOther
  split
  case h_2 => exact h
  case h_1 base hlock =>
    exact ⟨h.sound.relock nofun, fun q => (h.follows q).relock (by rw [hlock]; nofun)⟩

/-- **Every step keeps the invariant**, whoever takes it. -/
theorem Inv.step (h : Inv w first s) (a : Action ι)
    (ha : Fresh s a ∧ ReadsWhole s a ∧ WatchesInTime s a) : Inv w first (s.step w a) := by
  obtain ⟨hfresh, hwhole, hintime⟩ := ha
  cases a with
  | start p change outcome => exact h.start hwhole
  | watch p isOpened => exact h.watch hintime
  | lock p isLocked => exact h.lock isLocked
  | check p outcome => exact h.check hwhole
  | write p renamed => exact h.write hfresh
  | readBack p outcome => exact h.readBack hwhole
  | event p => exact h.event p
  | notice p outcome => exact h.notice hwhole
  | lockOther => exact h.lockOther
  | writeOther hosts renamed => exact h.writeOther hfresh
  | unlockOther => exact h.unlockOther
  | touch => exact ⟨h.sound, fun q => (h.follows q).raise⟩

omit [DecidableEq ι] in
theorem sound_opened (first : Entry) :
    Sound (w := w) first (opened first : PairedHosts ι).directory where
  present f hf := by
    obtain rfl : first = .file f := hf
    exact List.mem_singleton_self f
  stamps f hf g hg _ := by
    cases first with
    | missing => cases hf
    | irregular => cases hf
    | file h => exact (List.mem_singleton.mp hf).trans (List.mem_singleton.mp hg).symm
  kept := rfl
  wrote _ _ := fun ⟨_, hmem, _⟩ => absurd hmem List.not_mem_nil
  announced _ hcall := absurd hcall List.not_mem_nil
  other _ hlock := by cases hlock

omit [DecidableEq ι] in
theorem inv_opened (first : Entry) : Inv w first (opened first : PairedHosts ι) where
  sound := sound_opened first
  follows _ :=
    { knows := fun _ hhosts => by cases hhosts
      phase := trivial
      watches := fun _ hcache => absurd rfl hcache
      due := fun hdue => by cases hdue
      current := fun hwatcher => by cases hwatcher
      own := fun _ ⟨_, hmem, _⟩ => absurd hmem List.not_mem_nil }

omit [DecidableEq ι] in
theorem Inv.shared (h : Inv w first s) : Shared w first s where
  kept := h.sound.kept
  announced call hcall := (h.sound.announced call hcall).1
  current p hidle hdue hosts hhosts := by
    have hfollows := h.follows p
    have hsettled : Settled (s.caches p).phase := by
      rw [hidle]
      trivial
    have hcache : (s.caches p).cache ≠ none := by
      intro hnone
      rw [hnone] at hhosts
      cases hhosts
    exact eq_held h.sound hfollows.knows
      (hfollows.current (hfollows.watches hsettled hcache) hdue hsettled) hosts hhosts

/-- **No pairing is lost between processes**, however their steps come, as long as what is read can
be and a watch starts before another write. -/
theorem shared_of_inTime (first : Entry) (actions : List (Action ι))
    (h : Run.Along (step w) (fun s a => Fresh s a ∧ ReadsWhole s a ∧ WatchesInTime s a)
      (opened first) actions) :
    Shared w first (Run.after (step w) (opened first) actions) :=
  Inv.shared (Run.Along.invariant (I := Inv w first) (fun _ a hs ha => hs.step a ha) actions
    (inv_opened first) h)

/-! ## A write before the watch -/

/-- A Mac paired with. -/
def mac : PairedRemoteHost where
  id := "m"
  name := "mac"
  deviceID := "d"
  deviceKey := []
  pairedAt := 0

/-- The file with the Mac alone. -/
def macData : List UInt8 :=
  ascii "[\x7b\"id\":\"m\",\"name\":\"mac\",\"deviceID\":\"d\","
    ++ ascii "\"deviceKey\":\"\",\"pairedAt\":0\x7d]"

/-- The JSON of the Mac alone, and no other. -/
def macPlatform : Platform where
  encode hosts := if hosts = [mac] then some macData else none
  decode data := if data = macData then some [mac] else none
  isIPv4 _ := false
  isAscending a b := decide (a < b)
  decode_encode hosts data h := by
    split at h
    next heq =>
      cases h
      rw [if_pos rfl, heq]
    next => cases h

def macStamp : Stamp := ⟨1, 7, 70, 1000, 0⟩

/-- A cache loads and adds the Mac. -/
def macActions : List (Action Unit) :=
  [.start () (some fun hosts => some (mac :: hosts)) .complete, .watch () true, .lock () true,
    .check () .complete, .write () (some macStamp), .readBack () .complete, .event ()]

theorem shared_of_inTime_mac :
    Shared macPlatform .missing (Run.after (step macPlatform) (opened .missing) macActions) :=
  shared_of_inTime .missing macActions (by decide +kernel)

/-- Another process writes between a cache's first read and its watch. -/
def missedActions : List (Action Unit) :=
  [.start () none .complete, .lockOther, .writeOther [mac] (some macStamp), .watch () true]

/-- **A write before the watch is missed**: the cache has nothing to handle, and not the Mac. -/
theorem missed_write :
    ¬ ∀ (first : Entry) (actions : List (Action Unit)),
      Run.Along (step macPlatform) (fun s a => Fresh s a ∧ ReadsWhole s a) (opened first) actions →
        Shared macPlatform first (Run.after (step macPlatform) (opened first) actions) := by
  intro h
  have hcurrent := (h .missing missedActions (by decide +kernel)).current () (by decide +kernel)
    (by decide +kernel)
  have hcache : ((Run.after (step macPlatform) (opened .missing) missedActions).caches ()).cache =
      some [] := by
    decide +kernel
  have hheld : held macPlatform
      (Run.after (step macPlatform) (opened .missing) missedActions).directory.entry ≠ [] := by
    decide +kernel
  exact hheld (hcurrent [] hcache).symm

end PairedHosts
