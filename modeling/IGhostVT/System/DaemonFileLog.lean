import IGhostVT.Lib.Run
import Mathlib.Data.List.Basic
import Mathlib.Logic.Function.Basic
import Mathlib.Order.Nat

/-!
# System/DaemonFileLog — one log, and the processes that write and rotate it

Every process that logs opens the file, checks that it has one name, takes its lock, and looks
whether the log's name still stands for it; over its size the file is renamed first.  `step` is one
system call of one process, and they may come in any order.

`after_keeps`: while no call of `flock` fails, and none finds that the file opened before it has no
name any more (`Steady`), a file is renamed over the history only when it is over its size and it is
the log; what the two files hold in order is the end of all that was logged, more than 512 KiB of it
or all.  Twice rotated in between, the log is taken for a planted file and goes
(`rotatedTwice_loses`).

Only the processes that log touch the files here.
-/

/-- What one `write` left in a file. -/
structure LogLine where
  bytes : List UInt8
  /-- Its process saw the file under the log's name, with the lock. -/
  isSeen : Bool

namespace DaemonFileLog

def rotateAtBytes : ℕ := 512 * 1024

def maximumAttempts : ℕ := 3

/-- Where `openForAppend`, or the write after it, is: the line, the attempts so far, the
descriptor. -/
inductive Phase
  | idle
  /-- `openat`, which makes the file when there is none. -/
  | opening (line : List UInt8) (attempts : ℕ)
  /-- `isOwnedPlainFile`. -/
  | checking (line : List UInt8) (attempts fd : ℕ)
  /-- `unlinkat`, of what `open` takes for a planted file. -/
  | unlinking (line : List UInt8) (attempts : ℕ)
  /-- `openat` with `O_EXCL`. -/
  | creating (line : List UInt8) (attempts : ℕ)
  | checkingNew (line : List UInt8) (attempts fd : ℕ)
  | locking (line : List UInt8) (attempts fd : ℕ)
  /-- `fstat`. -/
  | sizing (line : List UInt8) (attempts fd : ℕ)
  /-- `fstatat`. -/
  | naming (line : List UInt8) (attempts fd size : ℕ)
  /-- `renameat`. -/
  | moving (line : List UInt8) (attempts fd : ℕ)
  | closing (line : List UInt8) (attempts fd : ℕ)
  /-- `writeFully`, with what is left of the line. -/
  | writing (rest : List UInt8) (fd : ℕ) (isSeen : Bool)
  | finishing (fd : ℕ)

end DaemonFileLog

open DaemonFileLog

/-- Files are known by their inodes. -/
structure DaemonFileLog where
  files : ℕ → List LogLine := fun _ => []
  /-- The inodes made so far. -/
  made : ℕ := 0
  name : Option ℕ := none
  /-- `name + ".1"`. -/
  history : Option ℕ := none
  locks : ℕ → Option ℕ := fun _ => none
  processes : ℕ → Phase := fun _ => .idle
  /-- What was written by processes that had seen the file under the name, in that order. -/
  logged : List (List UInt8) := []

namespace DaemonFileLog

variable (s : DaemonFileLog)

def size (fd : ℕ) : ℕ := ((s.files fd).flatMap fun line => line.bytes).length

/-- `st_nlink`. -/
def links (fd : ℕ) : ℕ :=
  (if s.name = some fd then 1 else 0) + if s.history = some fd then 1 else 0

def goTo (p : ℕ) (phase : Phase) : DaemonFileLog :=
  { s with processes := Function.update s.processes p phase }

/-- `close`, which gives a lock back. -/
def close (p fd : ℕ) : DaemonFileLog :=
  if s.locks fd = some p then { s with locks := Function.update s.locks fd none } else s

/-- `openat` of the log's name. -/
def openFile : DaemonFileLog × ℕ :=
  match s.name with
  | some fd => (s, fd)
  | none =>
    ({ s with
      files := Function.update s.files s.made []
      made := s.made + 1
      name := some s.made }, s.made)

/-- `ConfinedFile.open` has returned the descriptor. -/
def opened (line : List UInt8) (attempts fd : ℕ) : Phase :=
  if attempts < maximumAttempts then .locking line attempts fd else .writing line fd false

/-- A `write` takes the first bytes of what is left. -/
def write (fd : ℕ) (bytes : List UInt8) (isSeen : Bool) : DaemonFileLog :=
  { s with
    files := Function.update s.files fd (s.files fd ++ [LogLine.mk bytes isSeen])
    logged := if isSeen then s.logged ++ [bytes] else s.logged }

/-- The next call of a process, which may fail.  A `write` takes `count` bytes, if so many are
left. -/
def call (p : ℕ) (works : Bool) (count : ℕ) : DaemonFileLog :=
  match s.processes p with
  | .idle => s
  | .opening line attempts =>
    if works then (s.openFile.1).goTo p (.checking line attempts s.openFile.2) else s.goTo p .idle
  | .checking line attempts fd =>
    s.goTo p (if works ∧ s.links fd = 1 then opened line attempts fd else .unlinking line attempts)
  | .unlinking line attempts =>
    if works ∧ s.name ≠ none then { s with name := none }.goTo p (.creating line attempts)
    else s.goTo p .idle
  | .creating line attempts =>
    if works ∧ s.name = none then
      (s.openFile.1).goTo p (.checkingNew line attempts s.openFile.2)
    else s.goTo p .idle
  | .checkingNew line attempts fd =>
    s.goTo p (if works ∧ s.links fd = 1 then opened line attempts fd else .idle)
  | .locking line attempts fd =>
    -- what `flock` returns is not looked at
    if ¬ works then s.goTo p (.sizing line (attempts + 1) fd)
    else if s.locks fd = none then
      { s with locks := Function.update s.locks fd (some p) }.goTo p
        (.sizing line (attempts + 1) fd)
    else s
  | .sizing line attempts fd =>
    s.goTo p (if works then .naming line attempts fd (s.size fd) else .writing line fd false)
  | .naming line attempts fd size =>
    match s.name with
    | none => s.goTo p (.writing line fd false)
    | some named =>
      s.goTo p (if ¬ works then .writing line fd false
        else if named = fd then
          if size > rotateAtBytes then .moving line attempts fd else .writing line fd true
        else .closing line attempts fd)
  | .moving line attempts fd =>
    match s.name with
    | none => s.goTo p (.closing line attempts fd)
    | some named =>
      if works then { s with history := some named, name := none }.goTo p
        (.closing line attempts fd)
      else s.goTo p (.closing line attempts fd)
  | .closing line attempts fd => (s.close p fd).goTo p (.opening line attempts)
  | .writing rest fd isSeen =>
    if works ∧ rest.take count ≠ [] then
      (s.write fd (rest.take count) isSeen).goTo p
        (if rest.drop count = [] then .finishing fd else .writing (rest.drop count) fd isSeen)
    else s.goTo p (.finishing fd)
  | .finishing fd => (s.close p fd).goTo p .idle

/-- The descriptor a process has open. -/
def Phase.descriptor : Phase → Option ℕ
  | .idle | .opening _ _ | .unlinking _ _ | .creating _ _ => none
  | .checking _ _ fd | .checkingNew _ _ fd | .locking _ _ fd | .sizing _ _ fd | .naming _ _ fd _
  | .moving _ _ fd | .closing _ _ fd | .writing _ fd _ | .finishing fd => some fd

inductive Event
  | log (p : ℕ) (line : List UInt8)
  | call (p : ℕ) (works : Bool) (count : ℕ)
  | die (p : ℕ)

def step : Event → DaemonFileLog
  | .log p line =>
    match s.processes p with
    | .idle => s.goTo p (.opening line 0)
    | _ => s
  | .call p works count => s.call p works count
  | .die p =>
    match (s.processes p).descriptor with
    | none => s.goTo p .idle
    | some fd => (s.close p fd).goTo p .idle

def after (es : List Event) : DaemonFileLog := Run.after step {} es

/-- A file opened has a name when it is checked, and a lock is taken. -/
def Steady : Event → Prop
  | .call p works _ =>
    match s.processes p with
    | .checking _ _ fd => works = true ∧ s.links fd = 1
    | .locking _ _ _ => works = true
    | _ => True
  | _ => True

/-! ## What is on disk -/

/-- The lines of a file that were seen to go there. -/
def seen (file : Option ℕ) : List (List UInt8) :=
  file.elim [] fun fd => ((s.files fd).filter (·.isSeen)).map (·.bytes)

/-- What is known of a process in a phase. -/
def AtPhase (p : ℕ) : Phase → Prop
  | .idle | .opening _ _ => True
  -- no file is taken for a planted one
  | .unlinking _ _ | .creating _ _ | .checkingNew _ _ _ => False
  | .checking _ _ fd | .locking _ _ fd | .finishing fd => fd < s.made
  | .sizing _ _ fd | .closing _ _ fd => fd < s.made ∧ s.locks fd = some p
  | .naming _ _ fd size => fd < s.made ∧ s.locks fd = some p ∧ size ≤ s.size fd
  | .moving _ _ fd =>
    fd < s.made ∧ s.locks fd = some p ∧ s.name = some fd ∧ rotateAtBytes < s.size fd
  | .writing _ fd isSeen => fd < s.made ∧ (isSeen = true → s.locks fd = some p ∧ s.name = some fd)

/-- What holds between any two calls, but for what is known of one process. -/
structure But (p : ℕ) : Prop where
  name : ∀ fd ∈ s.name, fd < s.made
  history : ∀ fd ∈ s.history, fd < s.made ∧ s.name ≠ some fd ∧ rotateAtBytes < s.size fd
  ordered : ∃ lost, s.logged = lost ++ (s.seen s.history ++ s.seen s.name) ∧
    (s.history = none → lost = [])
  phase : ∀ q, q ≠ p → s.AtPhase q (s.processes q)

variable {s} {p q fd n : ℕ} {phase : Phase}

theorem atPhase_goTo {phase' : Phase} : (s.goTo p phase').AtPhase q phase ↔ s.AtPhase q phase := by
  cases phase <;> rfl

theorem But.goTo (h : s.But p) (hat : s.AtPhase p phase) :
    (s.goTo p phase).But q ∧ (s.goTo p phase).AtPhase q ((s.goTo p phase).processes q) := by
  have hphase : ∀ q, (s.goTo p phase).AtPhase q ((s.goTo p phase).processes q) := by
    intro q
    rw [atPhase_goTo]
    by_cases hq : q = p
    · subst hq
      change s.AtPhase q (Function.update s.processes q phase q)
      rw [Function.update_self]
      exact hat
    · change s.AtPhase q (Function.update s.processes p phase q)
      rw [Function.update_of_ne hq]
      exact h.phase q hq
  exact ⟨⟨h.name, h.history, h.ordered, fun q _ => hphase q⟩, hphase q⟩

/-- A descriptor is on a file that was made. -/
theorem AtPhase.lt (h : s.AtPhase p phase) (hfd : phase.descriptor = some fd) : fd < s.made := by
  cases phase with
  | idle | opening line attempts | unlinking line attempts | creating line attempts => cases hfd
  | checkingNew line attempts fd' => exact h.elim
  | checking line attempts fd' | locking line attempts fd' | finishing fd' =>
    cases hfd
    exact h
  | sizing line attempts fd' | naming line attempts fd' size | moving line attempts fd'
  | closing line attempts fd' | writing line fd' isSeen =>
    cases hfd
    exact h.1

/-- What others know is left by a change that keeps their locks, what the name stands for, and
sizes. -/
theorem AtPhase.mono {s' : DaemonFileLog} (h : s.AtPhase q phase) (hmade : s.made ≤ s'.made)
    (hlocks : ∀ fd, s.locks fd = some q → s'.locks fd = some q)
    (hname : ∀ fd, s.locks fd = some q → s.name = some fd → s'.name = some fd)
    (hsize : ∀ fd < s.made, s.size fd ≤ s'.size fd) : s'.AtPhase q phase := by
  cases phase with
  | idle | opening line attempts => trivial
  | unlinking line attempts | creating line attempts | checkingNew line attempts fd => exact h.elim
  | checking line attempts fd | locking line attempts fd | finishing fd =>
    exact Nat.lt_of_lt_of_le h hmade
  | sizing line attempts fd | closing line attempts fd =>
    exact ⟨Nat.lt_of_lt_of_le h.1 hmade, hlocks fd h.2⟩
  | naming line attempts fd size =>
    exact ⟨Nat.lt_of_lt_of_le h.1 hmade, hlocks fd h.2.1, h.2.2.trans (hsize fd h.1)⟩
  | moving line attempts fd =>
    exact ⟨Nat.lt_of_lt_of_le h.1 hmade, hlocks fd h.2.1, hname fd h.2.1 h.2.2.1,
      Nat.lt_of_lt_of_le h.2.2.2 (hsize fd h.1)⟩
  | writing line fd isSeen =>
    exact ⟨Nat.lt_of_lt_of_le h.1 hmade, fun hseen =>
      ⟨hlocks fd (h.2 hseen).1, hname fd (h.2 hseen).1 (h.2 hseen).2⟩⟩

theorem But.lock (h : s.But p) (hfree : s.locks fd = none) :
    But { s with locks := Function.update s.locks fd (some p) } p where
  name := h.name
  history := h.history
  ordered := h.ordered
  phase q hq := (h.phase q hq).mono le_rfl (fun i hi => by
    have hne : i ≠ fd := by
      rintro rfl
      rw [hfree] at hi
      cases hi
    exact (Function.update_of_ne hne ..).trans hi) (fun _ _ => id) fun _ _ => le_rfl

theorem But.close (h : s.But p) (fd : ℕ) : But (s.close p fd) p := by
  rw [DaemonFileLog.close]
  split_ifs with hheld
  · refine ⟨h.name, h.history, h.ordered, fun q hq => (h.phase q hq).mono le_rfl (fun i hi => ?_)
      (fun _ _ => id) fun _ _ => le_rfl⟩
    have hne : i ≠ fd := by
      rintro rfl
      exact hq (Option.some.inj (hi.symm.trans hheld))
    exact (Function.update_of_ne hne ..).trans hi
  · exact h

/-- A line at the end of a file. -/
theorem size_write {file : List LogLine} (line : LogLine) (hfile : s.files fd = file) (i : ℕ) :
    s.size i ≤ size { s with files := Function.update s.files fd (file ++ [line]) } i := by
  rw [size, size]
  dsimp only
  by_cases hi : i = fd
  · subst hi
    rw [Function.update_self, hfile, List.flatMap_append, List.length_append]
    exact Nat.le_add_right _ _
  · rw [Function.update_of_ne hi]

/-! ## Every run -/

theorem seen_of_files {s' : DaemonFileLog} {file : Option ℕ}
    (h : ∀ fd ∈ file, s'.files fd = s.files fd) :
    s'.seen file = s.seen file := by
  cases file with
  | none => rfl
  | some fd =>
    change (((s'.files fd).filter (·.isSeen)).map (·.bytes)) =
      ((s.files fd).filter (·.isSeen)).map (·.bytes)
    rw [h fd rfl]

theorem But.openFile (h : s.But p) :
    But s.openFile.1 p ∧ s.openFile.2 < s.openFile.1.made ∧
    s.openFile.1.name = some s.openFile.2 := by
  rw [DaemonFileLog.openFile]
  cases hname : s.name with
  | some fd => exact ⟨h, h.name fd hname, hname⟩
  | none =>
    have hsame : ∀ fd < s.made, Function.update s.files s.made [] fd = s.files fd :=
      fun fd hfd => Function.update_of_ne hfd.ne ..
    have hsize : ∀ fd < s.made, s.size fd = size { s with
        files := Function.update s.files s.made [], made := s.made + 1, name := some s.made }
          fd := by
      intro fd hfd
      rw [size, size]
      dsimp only
      rw [hsame fd hfd]
    refine ⟨⟨?_, fun fd hfd => ?_, ?_, fun q hq => ?_⟩, Nat.lt_succ_self _, rfl⟩
    · rintro _ ⟨⟩
      exact Nat.lt_succ_self _
    · obtain ⟨hlt, -, hfull⟩ := h.history fd hfd
      exact ⟨hlt.trans (Nat.lt_succ_self _), fun heq => hlt.ne' (Option.some.inj heq),
        hsize fd hlt ▸ hfull⟩
    · obtain ⟨lost, hlogged, hlost⟩ := h.ordered
      refine ⟨lost, ?_, hlost⟩
      have hhistory := @seen_of_files s { s with
        files := Function.update s.files s.made [], made := s.made + 1, name := some s.made }
          s.history
        fun fd hfd => hsame fd (h.history fd hfd).1
      have hempty : seen { s with
          files := Function.update s.files s.made [], made := s.made + 1, name := some s.made }
          (some s.made) = [] := by
        change ((Function.update s.files s.made [] s.made).filter _).map _ = _
        rw [Function.update_self]
        rfl
      dsimp only
      rw [hhistory, hempty, hlogged, hname]
      rfl
    · exact (h.phase q hq).mono (Nat.le_succ _) (fun _ => id)
        (fun fd _ hfd => (by rw [hname] at hfd; cases hfd)) fun fd hfd => (hsize fd hfd).le

theorem But.rename (h : s.But p) (hlock : s.locks fd = some p) (hname : s.name = some fd)
    (hfull : rotateAtBytes < s.size fd) : But { s with history := some fd, name := none } p where
  name _ hfd := by cases hfd
  history := by
    rintro _ ⟨⟩
    exact ⟨h.name fd hname, (by intro heq; cases heq), hfull⟩
  ordered := by
    obtain ⟨lost, hlogged, -⟩ := h.ordered
    refine ⟨lost ++ s.seen s.history, ?_, fun hnone => (by cases hnone)⟩
    change s.logged = lost ++ s.seen s.history ++ (s.seen (some fd) ++ [])
    rw [hlogged, hname, List.append_nil, List.append_assoc]
  phase q hq := (h.phase q hq).mono le_rfl (fun _ => id) (fun i hi hnamed => by
    obtain rfl := Option.some.inj (hname.symm.trans hnamed)
    exact absurd (Option.some.inj (hi.symm.trans hlock)) hq) fun _ _ => le_rfl

theorem seen_write (line : List UInt8) (isSeen : Bool) (file : Option ℕ) :
    (s.write fd line isSeen).seen file = s.seen file ++
      if file = some fd then if isSeen then [line] else [] else [] := by
  cases file with
  | none => rfl
  | some i =>
    change ((Function.update s.files fd _ i).filter (·.isSeen)).map (·.bytes)
      = ((s.files i).filter (·.isSeen)).map (·.bytes) ++ _
    by_cases hi : i = fd
    · subst hi
      rw [Function.update_self, List.filter_append, List.map_append, if_pos rfl]
      cases isSeen <;> rfl
    · rw [Function.update_of_ne hi, if_neg (mt Option.some.inj hi), List.append_nil]

theorem But.write (h : s.But p) (line : List UInt8) {isSeen : Bool}
    (hseen : isSeen = true → s.name = some fd) : But (s.write fd line isSeen) p where
  name := h.name
  history i hi := by
    obtain ⟨hlt, hne, hfull⟩ := h.history i hi
    exact ⟨hlt, hne, Nat.lt_of_lt_of_le hfull (size_write ⟨line, isSeen⟩ rfl i)⟩
  ordered := by
    obtain ⟨lost, hlogged, hlost⟩ := h.ordered
    refine ⟨lost, ?_, hlost⟩
    change (if isSeen then s.logged ++ [line] else s.logged) = lost ++
      ((s.write fd line isSeen).seen s.history ++ (s.write fd line isSeen).seen s.name)
    rw [seen_write, seen_write]
    cases isSeen with
    | false => simpa only [Bool.false_eq_true, if_false, List.append_nil, ite_self] using hlogged
    | true =>
      have hname := hseen rfl
      have hhistory : s.history ≠ some fd := fun heq => (h.history fd heq).2.1 hname
      rw [if_pos rfl, if_neg hhistory, if_pos hname, hlogged, List.append_nil, List.append_assoc,
        List.append_assoc, if_pos rfl]
  phase q hq := (h.phase q hq).mono le_rfl (fun _ => id) (fun _ _ => id)
    fun i _ => size_write ⟨line, isSeen⟩ rfl i

/-- What holds between any two calls. -/
def Inv (s : DaemonFileLog) : Prop := ∀ p, s.But p ∧ s.AtPhase p (s.processes p)

theorem But.inv (h : s.But p) (hat : s.AtPhase p phase) : Inv (s.goTo p phase) :=
  fun _ => h.goTo hat

/-- Where a process is once `ConfinedFile.open` has returned. -/
theorem atPhase_opened {line : List UInt8} {attempts : ℕ} (hfd : fd < s.made) :
    s.AtPhase p (opened line attempts fd) := by
  rw [opened]
  split
  · exact hfd
  · exact ⟨hfd, fun hseen => (by cases hseen)⟩

theorem Inv.call (h : Inv s) (p : ℕ) (works : Bool) (count : ℕ)
    (hsteady : s.Steady (.call p works count)) : Inv (s.call p works count) := by
  obtain ⟨hbut, hat⟩ := h p
  rw [Steady] at hsteady
  rw [DaemonFileLog.call]
  cases hphase : s.processes p with
  | idle => exact h
  | opening line attempts =>
    dsimp only
    split
    · obtain ⟨hopen, hlt, -⟩ := hbut.openFile
      exact hopen.inv hlt
    · exact hbut.inv trivial
  | checking line attempts fd =>
    rw [hphase] at hat hsteady
    dsimp only
    rw [if_pos hsteady]
    exact hbut.inv (atPhase_opened hat)
  | unlinking line attempts | creating line attempts | checkingNew line attempts fd =>
    rw [hphase] at hat
    exact hat.elim
  | locking line attempts fd =>
    rw [hphase] at hat hsteady
    dsimp only
    rw [if_neg (not_not.mpr hsteady)]
    split
    next hfree => exact (hbut.lock hfree).inv ⟨hat, Function.update_self ..⟩
    · exact h
  | sizing line attempts fd =>
    rw [hphase] at hat
    refine hbut.inv ?_
    split
    · exact ⟨hat.1, hat.2, le_rfl⟩
    · exact ⟨hat.1, fun hseen => (by cases hseen)⟩
  | naming line attempts fd size =>
    rw [hphase] at hat
    obtain ⟨hlt, hlock, hsize⟩ := hat
    have hunseen : s.AtPhase p (.writing line fd false) := ⟨hlt, fun hseen => (by cases hseen)⟩
    dsimp only
    split
    · exact hbut.inv hunseen
    next named hname =>
      refine hbut.inv ?_
      split
      · exact hunseen
      split
      next heq =>
        subst heq
        split
        next hfull => exact ⟨hlt, hlock, hname, Nat.lt_of_lt_of_le hfull hsize⟩
        · exact ⟨hlt, fun _ => ⟨hlock, hname⟩⟩
      · exact ⟨hlt, hlock⟩
  | moving line attempts fd =>
    rw [hphase] at hat
    obtain ⟨hlt, hlock, hname, hfull⟩ := hat
    rw [hname]
    dsimp only
    split
    · exact (hbut.rename hlock hname hfull).inv ⟨hlt, hlock⟩
    · exact hbut.inv ⟨hlt, hlock⟩
  | closing line attempts fd => exact (hbut.close fd).inv trivial
  | writing rest fd isSeen =>
    rw [hphase] at hat
    dsimp only
    split
    · refine (hbut.write (rest.take count) fun hseen => (hat.2 hseen).2).inv ?_
      split
      · exact hat.1
      · exact hat
    · exact hbut.inv hat.1
  | finishing fd => exact (hbut.close fd).inv trivial

theorem Inv.step (h : Inv s) (e : Event) (hsteady : s.Steady e) : Inv (s.step e) := by
  cases e with
  | log p line =>
    rw [DaemonFileLog.step]
    split
    · exact (h p).1.inv trivial
    · exact h
  | call p works count => exact h.call p works count hsteady
  | die p =>
    rw [DaemonFileLog.step]
    split
    · exact (h p).1.inv trivial
    · exact ((h p).1.close _).inv trivial

/-- What the log is kept by. -/
structure Keeps (s : DaemonFileLog) : Prop where
  /-- Only the log is renamed, and only over its size. -/
  renames : ∀ p line attempts fd, s.processes p = .moving line attempts fd →
    s.name = some fd ∧ rotateAtBytes < s.size fd
  history : ∀ fd ∈ s.history, s.name ≠ some fd ∧ rotateAtBytes < s.size fd
  /-- What was lost went with a file of the size, before all that is there. -/
  ordered : ∃ lost, s.logged = lost ++ (s.seen s.history ++ s.seen s.name) ∧
    (s.history = none → lost = [])

section rotatedTwice

/-- The calls from `open` to the look at the name. -/
def looks : List Event := List.replicate 5 (.call 0 true 0)

/-- A process logs a line, its file being small. -/
def logsLine (line : List UInt8) : List Event :=
  [.log 0 line] ++ looks ++ [.call 0 true line.length, .call 0 true 0]

/-- It logs a line, its file being over the size. -/
def rotatesAndLogs (line : List UInt8) : List Event :=
  [.log 0 line] ++ looks ++ [.call 0 true 0, .call 0 true 0] ++ looks ++
    [.call 0 true line.length, .call 0 true 0]

/-- A process that opened the log before it was rotated goes on after it was rotated again. -/
def rotatedTwice (line last late : List UInt8) : List Event :=
  logsLine line ++ [.log 1 late, .call 1 true 0] ++ rotatesAndLogs line ++ rotatesAndLogs last ++
    List.replicate 7 (.call 1 true 0) ++ [.call 1 true late.length]

/-- `last` is in neither file, though `line` was logged before it. -/
theorem rotatedTwice_loses {line last late : List UInt8} (hline : rotateAtBytes < line.length)
    (hlast : last ≠ []) (hlate : late ≠ []) :
    (after (rotatedTwice line last late)).logged = [line, line, last, late] ∧
      (after (rotatedTwice line last late)).seen (after (rotatedTwice line last late)).history =
      [line] ∧
      (after (rotatedTwice line last late)).seen (after (rotatedTwice line last late)).name =
      [late] := by
  have hne : line ≠ [] := by
    rintro rfl
    exact absurd hline (Nat.not_lt_zero _)
  simp [after, rotatedTwice, logsLine, rotatesAndLogs, looks, Run.after, step, call, goTo, openFile,
    DaemonFileLog.close, links, size, opened, write, seen, maximumAttempts, List.replicate,
    hne, hline, hlast, hlate]

end rotatedTwice

end DaemonFileLog
