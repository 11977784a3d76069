import IGhostVT.Lib.Run
import Mathlib.Data.List.Basic
import Mathlib.Data.List.Count
import Mathlib.Order.WellFounded

/-!
# Remote/RelayCallBacks — the calls back a host makes to its relay

For an app that wants the host the relay sends a ticket, and the host dials the relay to claim it.
At most four calls back are set up at once, the other tickets wait.  A call back gives its place up
when it is spliced, has failed, or has taken 15 s, whichever comes first; `Once` makes that one
time.

A ticket is dropped when it comes while 32 wait, and at its turn when it is 10 s old, when the relay
listener is down or when signing fails.  Every other one is called back or waits.

* `holds_after` — the count is that of the calls being set up, tickets wait only while four are, and
  the calls are those of the tickets that are not dropped.
* `drains_after` — while the timers come on time no ticket waits for 25 s, and from wherever a run
  is they bring every ticket to its turn.
-/

/-- What a call back waits for. -/
inductive CallStage
  | starting
  | hello
  | answer
  | spliced
  /-- Its control connection is closed, or its splice has settled. -/
  | ended
deriving DecidableEq

structure CallBack where
  ticket : String
  startedAt : ℕ
  stage : CallStage := .starting
  /-- `Once` has run. -/
  isFinished : Bool := false
  /-- The 15 s after which it is finished whatever comes. -/
  hasTimer : Bool := true
deriving DecidableEq

namespace CallBack

/-- Times are in nanoseconds, and all of one clock. -/
@[irreducible] def second : ℕ := 1000000000

/-- When the timer comes. -/
def deadline (c : CallBack) : ℕ := c.startedAt + 15 * second

/-- A closure of one call back, on the splices' queue. -/
inductive Answer
  | timeout
  | ready (ok : Bool)
  | hello (ok : Bool)
  | answer (ok : Bool)
  /-- The control connection closes by itself, and tells no one. -/
  | dies
  /-- `onSettled`. -/
  | settled
deriving DecidableEq

variable (c : CallBack)

/-- `finished.run()` and `control.close()`. -/
def finish : CallBack := { c with isFinished := true, stage := .ended }

/-- A call back once a closure has run.  A timer never comes early. -/
def answered (now : ℕ) : Answer → CallBack
  | .timeout =>
    if c.hasTimer && c.deadline ≤ now then
      -- What was detached is not closed.
      { c with
        hasTimer := false
        isFinished := true
        stage := if c.isFinished || c.stage = .spliced then c.stage else .ended }
    else c
  | .ready ok =>
    if c.stage = .starting then (if ok then { c with stage := .hello } else c.finish) else c
  | .hello ok =>
    if c.stage = .hello then (if ok then { c with stage := .answer } else c.finish) else c
  | .answer ok =>
    if c.stage = .answer then (if ok then { c with stage := .spliced } else c.finish) else c
  | .dies => if c.stage = .hello ∨ c.stage = .answer then { c with stage := .ended } else c
  | .settled => if c.stage = .spliced then c.finish else c

end CallBack

namespace CallBacks

open CallBack (second)

def maximumCallbacksInFlight : ℤ := 4

def maximumWaitingCallbacks : ℕ := 32

def ticketLifetime : ℕ := 10 * second

/-- A ticket, and when it came. -/
structure Request where
  ticket : String
  cameAt : ℕ
deriving DecidableEq

/-- A ticket that was taken out of the line, and what it met then. -/
structure Turn where
  request : Request
  now : ℕ
  hasPort : Bool
  signs : Bool

/-- It was worth a call, and there could be one. -/
def Turn.isCalled (t : Turn) : Bool :=
  t.now - t.request.cameAt < ticketLifetime && t.hasPort && t.signs

/-- What `startCallBack` finds: the relay listener's port, and the signature for a ticket. -/
structure Means where
  hasPort : Bool
  signs : String → Bool

end CallBacks

open CallBacks in
structure CallBacks where
  now : ℕ := 0
  /-- An `Int` in the source. -/
  inFlight : ℤ := 0
  waiting : List Request := []
  calls : List CallBack := []
  /-- What `Once` has put on the link's queue. -/
  finishing : ℕ := 0
  /-- Every ticket that came, and how many waited then.  Not the program's, as is the next. -/
  arrivals : List (Request × ℕ) := []
  /-- Every ticket that had its turn. -/
  turns : List Turn := []

namespace CallBacks

open CallBack (second)

variable (b : CallBacks)

def startCallBack (means : Means) (ticket : String) : CallBacks :=
  if means.hasPort && means.signs ticket then
    { b with
      inFlight := b.inFlight + 1
      calls := b.calls ++ [{ ticket, startedAt := b.now }] }
  else b

/-- Keeps in mind that a ticket has its turn. -/
def noteTurn (means : Means) (next : Request) : CallBacks :=
  { b with turns := b.turns ++ [⟨next, b.now, means.hasPort, means.signs next.ticket⟩] }

/-- The loop of `startWaitingCallbacks`, over the requests that wait. -/
def startLoop (means : Means) : List Request → CallBacks → CallBacks
  | [], b => { b with waiting := [] }
  | next :: rest, b =>
    if b.inFlight < maximumCallbacksInFlight then
      let turned := b.noteTurn means next
      startLoop means rest
        (if b.now - next.cameAt < ticketLifetime then turned.startCallBack means next.ticket
          else turned)
    else { b with waiting := next :: rest }

def startWaitingCallbacks (means : Means) : CallBacks := startLoop means b.waiting b

def callBack (means : Means) (ticket : String) : CallBacks :=
  let waiting := b.waiting.length
  let b := { b with arrivals := b.arrivals ++ [(Request.mk ticket b.now, waiting)] }
  if waiting < maximumWaitingCallbacks then
    { b with waiting := b.waiting ++ [Request.mk ticket b.now] }.startWaitingCallbacks means
  else b

/-- The link's queue comes to what a finished call has put there. -/
def noteFinished (means : Means) : CallBacks :=
  match b.finishing with
  | 0 => b
  | finishing + 1 =>
    { b with inFlight := b.inFlight - 1, finishing }.startWaitingCallbacks means

/-- A closure of the call back at a place runs; `Once` runs its body when the call was not finished
yet. -/
def answered (i : ℕ) (answer : CallBack.Answer) : CallBacks :=
  match b.calls[i]? with
  | none => b
  | some c =>
    { b with
      calls := b.calls.set i (c.answered b.now answer)
      finishing :=
        if !c.isFinished && (c.answered b.now answer).isFinished then b.finishing + 1
        else b.finishing }

inductive Event
  | incoming (means : Means) (ticket : String)
  | answered (i : ℕ) (answer : CallBack.Answer)
  | noteFinished (means : Means)
  /-- The clock goes on. -/
  | passes (time : ℕ)

def step : Event → CallBacks
  | .incoming means ticket => b.callBack means ticket
  | .answered i answer => b.answered i answer
  | .noteFinished means => b.noteFinished means
  | .passes time => { b with now := b.now + time }

def after (es : List Event) : CallBacks := Run.after step {} es

/-! ## The book

A call is in flight from its turn until the link's queue comes to what `Once` put there. -/

/-- The calls back that `Once` has not finished. -/
def unfinished : ℕ := b.calls.countP (!·.isFinished)

/-- The tickets that came while there was room in the line. -/
def taken : List Request :=
  (b.arrivals.filter fun a => a.2 < maximumWaitingCallbacks).map (·.1)

/-- The turns that came to a call, and when. -/
def called : List (String × ℕ) :=
  (b.turns.filter Turn.isCalled).map fun t => (t.request.ticket, t.now)

/-- The book while `waiting` is what is left of the line. -/
structure Keeps (waiting : List Request) : Prop where
  inFlight : b.inFlight = (b.unfinished + b.finishing : ℕ)
  atMost : b.inFlight ≤ maximumCallbacksInFlight
  hasTimer : ∀ c ∈ b.calls, c.isFinished = false → c.hasTimer = true
  /-- No ticket is lost before its turn, and none has two. -/
  inOrder : b.taken = b.turns.map (·.request) ++ waiting
  /-- A turn comes to a call exactly when the ticket is worth one. -/
  calls : b.calls.map (fun c => (c.ticket, c.startedAt)) = b.called

/-- What holds between the closures of the queue. -/
structure Holds : Prop extends b.Keeps b.waiting where
  waits : b.waiting.length ≤ maximumWaitingCallbacks
  isFull : b.waiting ≠ [] → b.inFlight = maximumCallbacksInFlight

variable {b} {means : Means} {next : Request} {rest : List Request}

/-- A turn that comes to no call. -/
theorem Keeps.noteTurn (h : b.Keeps (next :: rest))
    (hnot : Turn.isCalled ⟨next, b.now, means.hasPort, means.signs next.ticket⟩ = false) :
    (b.noteTurn means next).Keeps rest where
  inFlight := h.inFlight
  atMost := h.atMost
  hasTimer := h.hasTimer
  inOrder := by
    rw [CallBacks.noteTurn, List.map_append, List.append_assoc]
    exact h.inOrder
  calls := by
    rw [called, CallBacks.noteTurn, List.filter_append, List.filter_singleton, hnot]
    dsimp only [cond_false]
    rw [List.append_nil]
    exact h.calls

/-- A turn that comes to one. -/
theorem Keeps.startCallBack (h : b.Keeps (next :: rest))
    (hroom : b.inFlight < maximumCallbacksInFlight)
    (hcalled : Turn.isCalled ⟨next, b.now, means.hasPort, means.signs next.ticket⟩ = true)
    (hmeans : (means.hasPort && means.signs next.ticket) = true) :
    ((b.noteTurn means next).startCallBack means next.ticket).Keeps rest := by
  rw [CallBacks.startCallBack, if_pos hmeans]
  refine ⟨?_, Int.add_one_le_of_lt hroom, fun c hc hfinished => ?_, ?_, ?_⟩
  · have hflight := h.inFlight
    rw [unfinished] at hflight
    rw [unfinished, List.countP_append, List.countP_singleton]
    simp only [CallBacks.noteTurn, Bool.not_false, if_true]
    omega
  · rcases List.mem_append.mp hc with hc | hc
    · exact h.hasTimer c hc hfinished
    · rw [List.mem_singleton.mp hc]
  · dsimp only [CallBacks.noteTurn]
    rw [List.map_append, List.append_assoc]
    exact h.inOrder
  · dsimp only [CallBacks.noteTurn, called]
    rw [List.map_append, h.calls, List.filter_append, List.filter_singleton, hcalled,
      List.map_append]
    rfl

/-- **A turn**, whatever it comes to. -/
theorem Keeps.turn (h : b.Keeps (next :: rest)) (hroom : b.inFlight < maximumCallbacksInFlight) :
    (if b.now - next.cameAt < ticketLifetime then
        (b.noteTurn means next).startCallBack means next.ticket
      else b.noteTurn means next).Keeps rest := by
  by_cases hyoung : b.now - next.cameAt < ticketLifetime
  · rw [if_pos hyoung]
    by_cases hmeans : (means.hasPort && means.signs next.ticket) = true
    · refine h.startCallBack hroom ?_ hmeans
      rw [Turn.isCalled, decide_eq_true hyoung, Bool.true_and]
      exact hmeans
    · rw [CallBacks.startCallBack, if_neg hmeans]
      refine h.noteTurn ?_
      rw [Turn.isCalled, decide_eq_true hyoung, Bool.true_and]
      exact Bool.eq_false_of_not_eq_true hmeans
  · rw [if_neg hyoung]
    refine h.noteTurn ?_
    rw [Turn.isCalled, decide_eq_false hyoung, Bool.false_and, Bool.false_and]

/-- **The loop**: it brings on what there is room for, and leaves the rest only when there is
none. -/
theorem Keeps.startLoop (waiting : List Request) (h : b.Keeps waiting)
    (hwaits : waiting.length ≤ maximumWaitingCallbacks) : (startLoop means waiting b).Holds := by
  induction waiting generalizing b with
  | nil =>
    exact ⟨⟨h.inFlight, h.atMost, h.hasTimer, h.inOrder, h.calls⟩, Nat.zero_le _,
      fun hne => absurd rfl hne⟩
  | cons next rest ih =>
    rw [CallBacks.startLoop]
    split
    next hroom => exact ih (h.turn hroom) (Nat.le_of_succ_le hwaits)
    next hroom =>
      exact ⟨⟨h.inFlight, h.atMost, h.hasTimer, h.inOrder, h.calls⟩, hwaits,
        fun _ => le_antisymm h.atMost (not_lt.mp hroom)⟩

theorem Holds.callBack (h : b.Holds) (ticket : String) : (b.callBack means ticket).Holds := by
  rw [CallBacks.callBack]
  dsimp only
  split
  next hroom =>
    refine Keeps.startLoop _ ⟨h.inFlight, h.atMost, h.hasTimer, ?_, h.calls⟩ ?_
    · rw [taken, List.filter_append, List.filter_singleton, decide_eq_true hroom, List.map_append]
      dsimp only [cond_true]
      rw [← List.append_assoc, ← h.inOrder]
      rfl
    · rw [List.length_append, List.length_singleton]
      exact hroom
  next hroom =>
    refine ⟨⟨h.inFlight, h.atMost, h.hasTimer, ?_, h.calls⟩, h.waits, h.isFull⟩
    rw [taken, List.filter_append, List.filter_singleton, decide_eq_false hroom, List.map_append]
    dsimp only [cond_false]
    rw [List.map_nil, List.append_nil]
    exact h.inOrder

theorem Holds.noteFinished (h : b.Holds) : (b.noteFinished means).Holds := by
  rw [CallBacks.noteFinished]
  split
  next => exact h
  next finishing hfinishing =>
    refine Keeps.startLoop _ ⟨?_, ?_, h.hasTimer, h.inOrder, h.calls⟩ h.waits
    · have := h.inFlight
      change b.inFlight - 1 = (b.unfinished + finishing : ℕ)
      omega
    · exact (Int.sub_le_self _ (by decide)).trans h.atMost

/-! ## A closure of a call back -/

variable {i : ℕ} {c : CallBack} {answer : CallBack.Answer} {now : ℕ}

theorem answered_ticket : (c.answered now answer).ticket = c.ticket ∧
    (c.answered now answer).startedAt = c.startedAt := by
  cases answer <;> rw [CallBack.answered] <;> split_ifs <;> exact ⟨rfl, rfl⟩

/-- A call that is not finished afterwards was not before, and its timer is as it was. -/
theorem answered_unfinished (h : (c.answered now answer).isFinished = false) :
    c.isFinished = false ∧ (c.answered now answer).hasTimer = c.hasTimer := by
  cases answer <;> rw [CallBack.answered] at h ⊢ <;> split_ifs at h ⊢ <;>
    first | exact ⟨h, rfl⟩ | (cases h)

/-- One call less is unfinished when `Once` runs its body. -/
theorem unfinished_answered (hc : b.calls[i]? = some c) :
    (b.answered i answer).unfinished + (b.answered i answer).finishing =
      b.unfinished + b.finishing := by
  obtain ⟨hi, hget⟩ := List.getElem?_eq_some_iff.mp hc
  rw [CallBacks.answered, hc]
  dsimp only
  rw [unfinished, unfinished, List.countP_set hi, hget]
  cases hfinished : c.isFinished with
  | false =>
    have hpos : 0 < b.calls.countP (!·.isFinished) :=
      List.countP_pos_iff.mpr ⟨c, List.mem_of_getElem? hc, by rw [hfinished, Bool.not_false]⟩
    cases (c.answered b.now answer).isFinished <;> simp <;> omega
  | true =>
    have hstays : (c.answered b.now answer).isFinished = true := by
      by_contra hno
      have hwas := (answered_unfinished (Bool.eq_false_of_not_eq_true hno)).1
      exact absurd hwas (hfinished ▸ Bool.noConfusion)
    rw [hstays]
    simp

/-- What a closure of a call leaves as it was. -/
structure Same (b b' : CallBacks) : Prop where
  now : b'.now = b.now
  inFlight : b'.inFlight = b.inFlight
  waiting : b'.waiting = b.waiting
  arrivals : b'.arrivals = b.arrivals
  turns : b'.turns = b.turns
  tickets : b'.calls.map (fun c => (c.ticket, c.startedAt)) =
    b.calls.map fun c => (c.ticket, c.startedAt)

theorem answered_same : Same b (b.answered i answer) := by
  rw [CallBacks.answered]
  cases hc : b.calls[i]? with
  | none => exact ⟨rfl, rfl, rfl, rfl, rfl, rfl⟩
  | some c =>
    have hmapped : (b.calls.map fun c => (c.ticket, c.startedAt))[i]? =
        some (c.ticket, c.startedAt) := by
      rw [List.getElem?_map, hc, Option.map_some]
    obtain ⟨hi, hget⟩ := List.getElem?_eq_some_iff.mp hmapped
    obtain ⟨hticket, hstarted⟩ := @answered_ticket c answer b.now
    refine ⟨rfl, rfl, rfl, rfl, rfl, ?_⟩
    dsimp only
    rw [List.map_set, hticket, hstarted]
    conv_lhs => rw [← hget]
    exact List.set_getElem_self hi

/-- A call that is not finished after a closure is one that was not before. -/
theorem mem_answered {d : CallBack} (hd : d ∈ (b.answered i answer).calls)
    (hfinished : d.isFinished = false) : ∃ c ∈ b.calls, c.isFinished = false ∧
      d.hasTimer = c.hasTimer ∧ d.startedAt = c.startedAt := by
  rw [CallBacks.answered] at hd
  cases hc : b.calls[i]? with
  | none =>
    rw [hc] at hd
    exact ⟨d, hd, hfinished, rfl, rfl⟩
  | some c =>
    rw [hc] at hd
    rcases List.mem_or_eq_of_mem_set hd with hd | rfl
    · exact ⟨d, hd, hfinished, rfl, rfl⟩
    · obtain ⟨hwas, htimer⟩ := answered_unfinished hfinished
      exact ⟨c, List.mem_of_getElem? hc, hwas, htimer, answered_ticket.2⟩

theorem Holds.answered (h : b.Holds) : (b.answered i answer).Holds := by
  have hsame := @answered_same b i answer
  cases hc : b.calls[i]? with
  | none => rwa [CallBacks.answered, hc]
  | some c =>
    refine ⟨⟨?_, hsame.inFlight ▸ h.atMost, fun d hd hfinished => ?_, ?_, ?_⟩,
      hsame.waiting ▸ h.waits, ?_⟩
    · rw [hsame.inFlight, unfinished_answered hc]
      exact h.inFlight
    · obtain ⟨c, hmem, hwas, htimer, -⟩ := mem_answered hd hfinished
      exact htimer.trans (h.hasTimer c hmem hwas)
    · rw [taken, hsame.arrivals, hsame.turns, hsame.waiting]
      exact h.inOrder
    · rw [hsame.tickets, called, hsame.turns]
      exact h.calls
    · rw [hsame.waiting, hsame.inFlight]
      exact h.isFull

theorem Holds.step (h : b.Holds) (e : Event) : (b.step e).Holds := by
  cases e with
  | incoming means ticket => exact h.callBack ticket
  | answered i answer => exact h.answered
  | noteFinished means => exact h.noteFinished
  | passes time =>
    exact ⟨⟨h.inFlight, h.atMost, h.hasTimer, h.inOrder, h.calls⟩, h.waits, h.isFull⟩

theorem holds_start : Holds {} where
  inFlight := rfl
  atMost := by decide
  hasTimer := fun c hc => absurd hc List.not_mem_nil
  inOrder := rfl
  calls := rfl
  waits := Nat.zero_le _
  isFull := fun h => absurd rfl h

/-- **The book of calls back**, after any run: what is in flight and what waits, and that a ticket
that came with room in the line waits or had its turn, which came to a call exactly when the ticket
was younger than 10 s, the relay listener was up and the host signed. -/
theorem holds_after (es : List Event) : (after es).Holds :=
  Run.invariant (I := Holds) (fun _ e h => Holds.step h e) es holds_start

/-! ## On time

The line is as old as its first ticket.  A ticket that waits was there before every call of a later
one, so each call in flight was started less than 10 s after the ticket came, and gives up its place
15 s later. -/

/-- A timer comes, and the link's queue comes to what is on it, before the clock goes on. -/
def OnTime (b : CallBacks) : Event → Prop
  | .passes time =>
    b.finishing = 0 ∧ ∀ c ∈ b.calls, c.isFinished = false → b.now + time ≤ c.deadline
  | _ => True

/-- The longest a ticket waits. -/
def patience : ℕ := 25 * second

theorem second_pos : 0 < second := by
  rw [CallBack.second]
  exact Nat.succ_pos _

/-- The times in the book while `waiting` is what is left of the line. -/
structure Timely (b : CallBacks) (waiting : List Request) : Prop where
  sorted : waiting.Pairwise fun r r' => r.cameAt ≤ r'.cameAt
  came : ∀ r ∈ waiting, r.cameAt ≤ b.now
  started : ∀ c ∈ b.calls, c.startedAt ≤ b.now
  /-- A call started before a ticket that waits was 10 s old. -/
  before : ∀ r ∈ waiting, ∀ c ∈ b.calls, c.startedAt < r.cameAt + ticketLifetime
  waits : ∀ r ∈ waiting, b.now < r.cameAt + patience
  turned : ∀ t ∈ b.turns, t.now < t.request.cameAt + patience

theorem Timely.noteTurn (h : b.Timely (next :: rest)) : (b.noteTurn means next).Timely rest where
  sorted := (List.pairwise_cons.mp h.sorted).2
  came := fun r hr => h.came r (List.mem_cons_of_mem _ hr)
  started := h.started
  before := fun r hr => h.before r (List.mem_cons_of_mem _ hr)
  waits := fun r hr => h.waits r (List.mem_cons_of_mem _ hr)
  turned := by
    intro t ht
    rcases List.mem_append.mp ht with ht | ht
    · exact h.turned t ht
    · rw [List.mem_singleton.mp ht]
      exact h.waits next List.mem_cons_self

theorem Timely.startCallBack (h : b.Timely rest) {ticket : String}
    (hyoung : ∀ r ∈ rest, b.now < r.cameAt + ticketLifetime) :
    (b.startCallBack means ticket).Timely rest := by
  rw [CallBacks.startCallBack]
  split
  case isFalse => exact h
  refine ⟨h.sorted, h.came, fun c hc => ?_, fun r hr c hc => ?_, h.waits, h.turned⟩
  · rcases List.mem_append.mp hc with hc | hc
    · exact h.started c hc
    · rw [List.mem_singleton.mp hc]
  · rcases List.mem_append.mp hc with hc | hc
    · exact h.before r hr c hc
    · rw [List.mem_singleton.mp hc]
      exact hyoung r hr

theorem Timely.startLoop (waiting : List Request) (h : b.Timely waiting) :
    (startLoop means waiting b).Timely (startLoop means waiting b).waiting := by
  induction waiting generalizing b with
  | nil => exact ⟨h.sorted, h.came, h.started, h.before, h.waits, h.turned⟩
  | cons next rest ih =>
    rw [CallBacks.startLoop]
    split
    case isFalse => exact ⟨h.sorted, h.came, h.started, h.before, h.waits, h.turned⟩
    refine ih ?_
    have hturned := @Timely.noteTurn b means next rest h
    split
    next hyoung =>
      refine hturned.startCallBack fun r hr => ?_
      have hcame : next.cameAt ≤ r.cameAt := (List.pairwise_cons.mp h.sorted).1 r hr
      show b.now < r.cameAt + ticketLifetime
      omega
    next => exact hturned

theorem Timely.callBack (h : b.Timely b.waiting) (ticket : String) :
    (b.callBack means ticket).Timely (b.callBack means ticket).waiting := by
  have hlife : 0 < ticketLifetime := Nat.mul_pos (Nat.succ_pos 9) second_pos
  have hpatience : 0 < patience := Nat.mul_pos (Nat.succ_pos 24) second_pos
  rw [CallBacks.callBack]
  dsimp only
  split
  case isFalse => exact ⟨h.sorted, h.came, h.started, h.before, h.waits, h.turned⟩
  refine Timely.startLoop _ ⟨?_, fun r hr => ?_, h.started, fun r hr c hc => ?_, fun r hr => ?_,
    h.turned⟩
  · refine List.pairwise_append.mpr ⟨h.sorted, List.pairwise_singleton .., fun r hr r' hr' => ?_⟩
    rw [List.mem_singleton.mp hr']
    exact h.came r hr
  · rcases List.mem_append.mp hr with hr | hr
    · exact h.came r hr
    · rw [List.mem_singleton.mp hr]
  · rcases List.mem_append.mp hr with hr | hr
    · exact h.before r hr c hc
    · rw [List.mem_singleton.mp hr]
      exact Nat.lt_of_le_of_lt (h.started c hc) (Nat.lt_add_of_pos_right hlife)
  · rcases List.mem_append.mp hr with hr | hr
    · exact h.waits r hr
    · rw [List.mem_singleton.mp hr]
      exact Nat.lt_add_of_pos_right hpatience

theorem Timely.answered (h : b.Timely b.waiting) :
    (b.answered i answer).Timely (b.answered i answer).waiting := by
  have hsame := @answered_same b i answer
  have hstarts {c : CallBack} (hc : c ∈ (b.answered i answer).calls) :
      ∃ d ∈ b.calls, d.startedAt = c.startedAt := by
    have hmem := List.mem_map_of_mem (f := fun c => (c.ticket, c.startedAt)) hc
    rw [hsame.tickets] at hmem
    obtain ⟨d, hd, hdc⟩ := List.mem_map.mp hmem
    exact ⟨d, hd, congrArg Prod.snd hdc⟩
  rw [hsame.waiting]
  refine ⟨h.sorted, hsame.now ▸ h.came, fun c hc => ?_, fun r hr c hc => ?_, hsame.now ▸ h.waits,
    hsame.turns ▸ h.turned⟩
  · obtain ⟨d, hd, hdc⟩ := hstarts hc
    rw [← hdc, hsame.now]
    exact h.started d hd
  · obtain ⟨d, hd, hdc⟩ := hstarts hc
    rw [← hdc]
    exact h.before r hr d hd

theorem Timely.noteFinished (h : b.Timely b.waiting) :
    (b.noteFinished means).Timely (b.noteFinished means).waiting := by
  rw [CallBacks.noteFinished]
  split
  next => exact h
  next =>
    exact Timely.startLoop _ ⟨h.sorted, h.came, h.started, h.before, h.waits, h.turned⟩

/-- **The clock goes on** no further than the timers of the four calls in flight. -/
theorem Timely.passes (h : b.Timely b.waiting) (hholds : b.Holds) {time : ℕ}
    (hontime : b.OnTime (.passes time)) : (b.step (.passes time)).Timely b.waiting := by
  refine ⟨h.sorted, fun r hr => (h.came r hr).trans (Nat.le_add_right _ _),
    fun c hc => (h.started c hc).trans (Nat.le_add_right _ _), h.before, fun r hr => ?_, h.turned⟩
  obtain ⟨hfinishing, hdue⟩ := hontime
  have hfull := hholds.isFull (List.ne_nil_of_mem hr)
  have hflight := hholds.inFlight
  have hunfinished : 0 < b.unfinished := by
    rw [hfull, hfinishing] at hflight
    rw [maximumCallbacksInFlight] at hflight
    omega
  obtain ⟨c, hc, hfinished⟩ := List.countP_pos_iff.mp hunfinished
  have hlast := hdue c hc (by simpa using hfinished)
  have hbefore := h.before r hr c hc
  have hsum : ticketLifetime + 15 * second = patience := (Nat.add_mul 10 15 second).symm
  rw [CallBack.deadline] at hlast
  show b.now + time < r.cameAt + patience
  omega

theorem Timely.step (h : b.Timely b.waiting) (hholds : b.Holds) {e : Event} (hontime : b.OnTime e) :
    (b.step e).Timely (b.step e).waiting := by
  cases e with
  | incoming means ticket => exact h.callBack ticket
  | answered i answer => exact h.answered
  | noteFinished means => exact h.noteFinished
  | passes time => exact h.passes hholds hontime

theorem timely_after {es : List Event} (hontime : Run.Along step OnTime {} es) :
    (after es).Timely (after es).waiting := by
  have hstart : Timely {} [] := by
    refine ⟨List.Pairwise.nil, ?_, ?_, ?_, ?_, ?_⟩ <;> intro _ h <;> exact absurd h List.not_mem_nil
  exact (Run.Along.invariant (I := fun b : CallBacks => b.Holds ∧ b.Timely b.waiting)
    (fun _ e h he => ⟨h.1.step e, h.2.step h.1 he⟩) es ⟨holds_start, hstart⟩ hontime).2

/-! ## Every ticket has its turn

A turn, and a call that finishes, leave less to do; while there is something to do and no timer is
due, the next one is waited for. -/

/-- What the closures of the queue have left to do. -/
def work (b : CallBacks) : ℕ := 3 * b.waiting.length + 2 * b.unfinished + b.finishing

/-- The line went on, with these means at each turn. -/
def Follows (means : Means) (b b' : CallBacks) : Prop :=
  ∃ ended : List Turn, b'.turns = b.turns ++ ended ∧
    b.waiting = ended.map (·.request) ++ b'.waiting ∧
    ∀ t ∈ ended, t.hasPort = means.hasPort ∧ t.signs = means.signs t.request.ticket

theorem Follows.of_same {b' : CallBacks} (hturns : b'.turns = b.turns)
    (hwaiting : b'.waiting = b.waiting) : Follows means b b' :=
  ⟨[], hturns.trans (List.append_nil _).symm, hwaiting.symm, fun _ ht => absurd ht List.not_mem_nil⟩

theorem Follows.trans {b' b'' : CallBacks} (h : Follows means b b') (h' : Follows means b' b'') :
    Follows means b b'' := by
  obtain ⟨ended, hturns, hwaiting, hmeans⟩ := h
  obtain ⟨ended', hturns', hwaiting', hmeans'⟩ := h'
  refine ⟨ended ++ ended', ?_, ?_, List.forall_mem_append.mpr ⟨hmeans, hmeans'⟩⟩
  · rw [hturns', hturns, List.append_assoc]
  · rw [hwaiting, hwaiting', List.map_append, List.append_assoc]

theorem startCallBack_same (ticket : String) :
    (b.startCallBack means ticket).turns = b.turns ∧
      (b.startCallBack means ticket).finishing = b.finishing ∧
      (b.startCallBack means ticket).unfinished ≤ b.unfinished + 1 := by
  rw [startCallBack]
  split
  · refine ⟨rfl, rfl, ?_⟩
    rw [unfinished, List.countP_append, List.countP_singleton]
    exact Nat.le_refl _
  · exact ⟨rfl, rfl, Nat.le_succ _⟩

/-- The loop leaves less to do than the line it is given. -/
theorem startLoop_work (waiting : List Request) (b : CallBacks) :
    (startLoop means waiting b).work ≤ 3 * waiting.length + 2 * b.unfinished + b.finishing := by
  induction waiting generalizing b with
  | nil => exact le_refl _
  | cons next rest ih =>
    rw [startLoop]
    split
    case isFalse => exact le_refl _
    obtain ⟨-, hfinishing, hunfinished⟩ :=
      @startCallBack_same (b.noteTurn means next) means next.ticket
    have hsame : (b.noteTurn means next).finishing = b.finishing ∧
      (b.noteTurn means next).unfinished = b.unfinished := ⟨rfl, rfl⟩
    refine (ih _).trans ?_
    rw [List.length_cons]
    split <;> omega

theorem startLoop_follows (waiting : List Request) (b : CallBacks) :
    Follows means { b with waiting } (startLoop means waiting b) := by
  induction waiting generalizing b with
  | nil => exact Follows.of_same rfl rfl
  | cons next rest ih =>
    rw [startLoop]
    split
    case isFalse => exact Follows.of_same rfl rfl
    have hturn : Follows means { b with waiting := next :: rest }
        { b.noteTurn means next with waiting := rest } :=
      ⟨[⟨next, b.now, means.hasPort, means.signs next.ticket⟩], rfl, rfl, by
        intro t ht
        rw [List.mem_singleton.mp ht]
        exact ⟨rfl, rfl⟩⟩
    refine hturn.trans (Follows.trans (Follows.of_same ?_ ?_) (ih _))
    · split
      · exact (startCallBack_same next.ticket).1
      · rfl
    · rfl

/-- The 15 s of a call are over, the queue comes to one that is finished, or the clock goes on. -/
def Event.IsOwn (means : Means) : Event → Prop
  | .answered _ answer => answer = .timeout
  | .noteFinished means' => means' = means
  | .passes _ => True
  | .incoming .. => False

theorem timeout_spec (h : b.Holds) (hc : b.calls[i]? = some c) (hfinished : c.isFinished = false)
    (hdue : c.deadline ≤ b.now) :
    (b.answered i .timeout).work < b.work ∧ Follows means b (b.answered i .timeout) := by
  have htimer : c.hasTimer = true := h.hasTimer c (List.mem_of_getElem? hc) hfinished
  have hdone : (c.answered b.now .timeout).isFinished = true := by
    rw [CallBack.answered, htimer, decide_eq_true hdue]
    rfl
  have hsame := @answered_same b i .timeout
  have hcount := @unfinished_answered b i c .timeout hc
  have hfinishing : (b.answered i .timeout).finishing = b.finishing + 1 := by
    rw [CallBacks.answered, hc]
    dsimp only
    rw [hdone, hfinished]
    rfl
  refine ⟨?_, Follows.of_same hsame.turns hsame.waiting⟩
  rw [work, work, hsame.waiting]
  omega

/-- The timer of a call is waited for, and comes. -/
theorem waited_spec (h : b.Holds) (hc : b.calls[i]? = some c) (hfinished : c.isFinished = false)
    {time : ℕ} (hdue : c.deadline ≤ b.now + time) :
    (Run.after CallBacks.step b [.passes time, .answered i .timeout]).work < b.work ∧
      Follows means b (Run.after CallBacks.step b [.passes time, .answered i .timeout]) := by
  have hwaited : (b.step (.passes time)).Holds := h.step _
  obtain ⟨hwork, hfollows⟩ := @timeout_spec _ means i c hwaited hc hfinished hdue
  exact ⟨hwork, (Follows.of_same rfl rfl).trans hfollows⟩

theorem noteFinished_spec (hfinishing : 0 < b.finishing) :
    (b.noteFinished means).work < b.work ∧ Follows means b (b.noteFinished means) := by
  rw [noteFinished]
  split
  next hzero => omega
  next finishing hsucc =>
    have hwork := @startLoop_work means b.waiting { b with inFlight := b.inFlight - 1, finishing }
    have hfollows :=
      @startLoop_follows means b.waiting { b with inFlight := b.inFlight - 1, finishing }
    refine ⟨Nat.lt_of_le_of_lt hwork ?_, (Follows.of_same rfl rfl).trans hfollows⟩
    rw [work, hsucc]
    exact Nat.lt_succ_self _

/-- Of the calls that are not finished, one has the first timer. -/
theorem exists_first (hpos : 0 < b.unfinished) : ∃ c ∈ b.calls, c.isFinished = false ∧
    ∀ d ∈ b.calls, d.isFinished = false → c.deadline ≤ d.deadline := by
  obtain ⟨c, hmem, hc⟩ := List.countP_pos_iff.mp hpos
  obtain ⟨t, ⟨d, hd, hfinished, rfl⟩, hmin⟩ := wellFounded_lt.has_min
    {t | ∃ c ∈ b.calls, c.isFinished = false ∧ c.deadline = t} ⟨_, c, hmem, by simpa using hc, rfl⟩
  exact ⟨d, hd, hfinished, fun e he hopen => not_lt.mp (hmin _ ⟨e, he, hopen, rfl⟩)⟩

/-- While something is in flight, the queue has something to do or a timer comes. -/
theorem Holds.progresses (h : b.Holds) (means : Means) (hflight : b.inFlight ≠ 0) :
    ∃ fs : List Event, (∀ f ∈ fs, f.IsOwn means) ∧ Run.Along CallBacks.step OnTime b fs ∧
      (Run.after CallBacks.step b fs).work < b.work ∧
      Follows means b (Run.after CallBacks.step b fs) := by
  by_cases hfinishing : 0 < b.finishing
  · obtain ⟨hwork, hfollows⟩ := @noteFinished_spec b means hfinishing
    exact ⟨[.noteFinished means], List.forall_mem_singleton.mpr rfl, ⟨trivial, trivial⟩, hwork,
      hfollows⟩
  · have hpos : 0 < b.unfinished := by
      have := h.inFlight
      omega
    obtain ⟨c, hmem, hfinished, hfirst⟩ := exists_first hpos
    obtain ⟨i, hi⟩ := List.getElem?_of_mem hmem
    by_cases hlate : c.deadline ≤ b.now
    · obtain ⟨hwork, hfollows⟩ := @timeout_spec b means i c h hi hfinished hlate
      exact ⟨[.answered i .timeout], List.forall_mem_singleton.mpr rfl, ⟨trivial, trivial⟩, hwork,
        hfollows⟩
    · have hdue : c.deadline ≤ b.now + (c.deadline - b.now) := by omega
      obtain ⟨hwork, hfollows⟩ := @waited_spec b means i c h hi hfinished _ hdue
      refine ⟨[.passes (c.deadline - b.now), .answered i .timeout],
        List.forall_mem_cons.mpr ⟨trivial, List.forall_mem_singleton.mpr rfl⟩,
        ⟨⟨by omega, fun d hd hopen => ?_⟩, trivial, trivial⟩, hwork, hfollows⟩
      have := hfirst d hd hopen
      omega

/-- The timers and the queue alone bring every ticket to its turn. -/
theorem Holds.drains (h : b.Holds) (means : Means) : ∃ fs : List Event,
    (∀ f ∈ fs, f.IsOwn means) ∧ Run.Along CallBacks.step OnTime b fs ∧
      (Run.after CallBacks.step b fs).inFlight = 0 ∧
      (Run.after CallBacks.step b fs).waiting = [] ∧
      Follows means b (Run.after CallBacks.step b fs) := by
  induction hwork : b.work using Nat.strong_induction_on generalizing b with
  | _ n ih =>
    by_cases hflight : b.inFlight = 0
    · have hempty : b.waiting = [] := by
        by_contra hne
        exact absurd (hflight.symm.trans (h.isFull hne)) (by decide)
      exact ⟨[], fun f hf => absurd hf List.not_mem_nil, trivial, hflight, hempty,
        Follows.of_same rfl rfl⟩
    · obtain ⟨fs, hown, hontime, hless, hfollows⟩ := h.progresses means hflight
      have hholds : (Run.after CallBacks.step b fs).Holds :=
        Run.invariant (I := Holds) (fun _ e h => Holds.step h e) fs h
      obtain ⟨fs', hown', hontime', hdone, hempty, hfollows'⟩ := ih _ (hwork ▸ hless) hholds rfl
      refine ⟨fs ++ fs', List.forall_mem_append.mpr ⟨hown, hown'⟩, hontime.append hontime', ?_⟩
      rw [Run.after_append]
      exact ⟨hdone, hempty, hfollows.trans hfollows'⟩

/-- **No ticket waits for 25 s, and every one has its turn.**  While the timers come on time a
ticket has its turn less than 25 s after it came; and from wherever a run is, timers that come on
time and the link's queue finish the calls and bring what waits to its turn, in order, each ticket
called back exactly when it is then younger than 10 s, the relay listener is up and the host
signs. -/
theorem drains_after (es : List Event) (means : Means) :
    (Run.Along step OnTime {} es →
      (∀ t ∈ (after es).turns, t.now < t.request.cameAt + patience) ∧
        ∀ r ∈ (after es).waiting, (after es).now < r.cameAt + patience) ∧
      ∃ (fs : List Event) (ended : List Turn), (∀ f ∈ fs, f.IsOwn means) ∧
        Run.Along step OnTime (after es) fs ∧ (after (es ++ fs)).inFlight = 0 ∧
        (after (es ++ fs)).waiting = [] ∧ ended.map (·.request) = (after es).waiting ∧
        (∀ t ∈ ended, t.hasPort = means.hasPort ∧ t.signs = means.signs t.request.ticket) ∧
        (after (es ++ fs)).turns = (after es).turns ++ ended ∧
        (after (es ++ fs)).calls.map (fun c => (c.ticket, c.startedAt)) =
          (after es).calls.map (fun c => (c.ticket, c.startedAt)) ++
            (ended.filter Turn.isCalled).map fun t => (t.request.ticket, t.now) := by
  refine ⟨fun hontime => ⟨(timely_after hontime).turned, (timely_after hontime).waits⟩, ?_⟩
  obtain ⟨fs, hown, hontime, hdone, hempty, ended, hturns, hwaiting, hmeans⟩ :=
    (holds_after es).drains means
  have hafter : after (es ++ fs) = Run.after step (after es) fs := Run.after_append ..
  rw [hempty, List.append_nil] at hwaiting
  refine ⟨fs, ended, hown, hontime, hafter ▸ hdone, hafter ▸ hempty, hwaiting.symm, hmeans,
    hafter ▸ hturns, ?_⟩
  rw [(holds_after (es ++ fs)).calls, (holds_after es).calls, called, called, hafter, hturns,
    List.filter_append, List.map_append]

end CallBacks
