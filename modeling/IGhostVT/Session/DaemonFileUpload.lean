import IGhostVT.Session.UploadIntegrity

/-!
# Session/DaemonFileUpload — one file copied onto a host, over links that fail

`DaemonFileUpload` sends a file in parts over a link of its own, a window of them unanswered, and
when the link fails it asks over another how much the host holds and goes on from there.  `step` is
both ends: the client, the links it made, the host's `FileUploadStore`, and whatever else that store
is asked for.

A link hands requests on in the order they were sent.  What was sent over a link the client gave up
may still arrive, and the answers of a link may be waited for in any order.
-/

open FileUploadStore

/-- The copy of one file. -/
structure FileCopy where
  /-- Random, so no one else's. -/
  id : ℕ
  name : String
  /-- The file when it was opened. -/
  content : List UInt8
  /-- The kernel's spelling of the host's upload folder. -/
  root : String
  id_ne_zero : id ≠ 0

namespace DaemonFileUpload

def maximumWindow : ℕ := 8

/-- One link's requests on their way, and its answers. -/
structure Wire where
  sent : List Message := []
  answers : List FileUploadStore.Reply := []
  /-- Nothing more gets onto it, and no more answers come back. -/
  broken : Bool := false
deriving DecidableEq

/-- Where `pump` is. -/
structure Pump where
  held : ℕ
  next : ℕ
  /-- Where the handle reads next. -/
  position : ℕ
  inFlight : ℕ := 0
  acceptedSinceGrowth : ℕ := 0
deriving DecidableEq

/-- Where `run` is. -/
inductive Stage
  /-- The loop of `begin`, or its wait for an answer. -/
  | begin (waiting : Bool)
  /-- The loop of `transfer`. -/
  | transfer (held : ℕ) (mustAsk : Bool)
  /-- Its wait for how much the host holds. -/
  | asking (held : ℕ)
  | pump (p : Pump)
  | returned
  | failed
deriving DecidableEq

end DaemonFileUpload

open DaemonFileUpload

structure DaemonFileUpload where
  host : Uploading := {}
  /-- The file as it is now, and how often it was written to. -/
  content : List UInt8
  edits : ℕ := 0
  wires : ℕ → Wire := fun _ => {}
  /-- The links made so far. -/
  made : ℕ := 0
  link : Option ℕ := none
  lost : Bool := false
  timedOut : Bool := false
  window : ℕ := maximumWindow
  path : Option String := none
  stage : Stage := .begin false

namespace DaemonFileUpload

variable (safeName : String → String) (c : FileCopy)

/-! ## Requests -/

def beginRequest : Message where
  fileName := some c.name
  fileSize := some c.content.length
  upload := some c.id

def askRequest : Message where
  upload := some c.id

def partRequest (offset : ℕ) (data : List UInt8) : Message where
  upload := some c.id
  offset := some offset
  data := some (some data)

def cancelRequest : Message where
  upload := some c.id
  cancel := true

/-! ## The link -/

def Wire.send (w : Wire) (messages : List Message) : Wire :=
  if w.broken then w else { w with sent := w.sent ++ messages }

def setWire (t : DaemonFileUpload) (n : ℕ) (w : Wire) : DaemonFileUpload :=
  { t with wires := Function.update t.wires n w }

def drop (t : DaemonFileUpload) : DaemonFileUpload :=
  { t with link := none, lost := false, timedOut := false }

/-- The link `liveLink` hands back without making one. -/
def live (t : DaemonFileUpload) : Option ℕ := if t.lost then none else t.link

/-- `abandon`: over a link of its own the host is told to remove what it has. -/
def abandon (t : DaemonFileUpload) : DaemonFileUpload :=
  { t.setWire t.made { sent := [cancelRequest c] } with made := t.made + 1 }

def fail (t : DaemonFileUpload) : DaemonFileUpload :=
  { t.drop.abandon c with stage := .failed }

/-- `liveLink`, in the loop of `begin` or of `transfer`. -/
def connect (t : DaemonFileUpload) (answered : Bool) : DaemonFileUpload :=
  let t := t.drop
  if answered then { t with link := some t.made, made := t.made + 1 }
  else match t.stage with
    | .transfer held _ => { t with stage := .transfer held true }
    | _ => t

/-! ## Parts -/

/-- The `sendNext`s that a window has room for, and whether the file could be read. -/
def fill (content : List UInt8) : ℕ → Pump → Pump × List Message × Bool
  | 0, p => (p, [], true)
  | room + 1, p =>
    if p.next < c.content.length then
      let count := min uploadChunkByteCount (c.content.length - p.next)
      let data := (content.drop p.position).take count
      if data.length = count then
        let (q, messages, isRead) := fill content room { p with
          next := p.next + count, position := p.position + count, inFlight := p.inFlight + 1 }
        (q, partRequest c p.next data :: messages, isRead)
      else (p, [], false)
    else (p, [], true)

/-- Sends what the window has room for; with nothing in flight `pump` is done. -/
def sendParts (t : DaemonFileUpload) (n : ℕ) (p : Pump) : DaemonFileUpload :=
  let (q, messages, isRead) := fill c t.content (t.window - p.inFlight) p
  let t := t.setWire n ((t.wires n).send messages)
  if isRead then { t with stage := if q.inFlight = 0 then .transfer q.held false else .pump q }
  else t.fail c

def startPump (t : DaemonFileUpload) (n held : ℕ) : DaemonFileUpload :=
  t.sendParts c n { held, next := held, position := held }

/-- `pump` hears that a part was taken. -/
def accepted (t : DaemonFileUpload) (n : ℕ) (p : Pump) (offset : ℕ) : DaemonFileUpload :=
  let p := { p with
    inFlight := p.inFlight - 1
    held := max p.held offset
    acceptedSinceGrowth := p.acceptedSinceGrowth + 1 }
  -- The host is ahead of what this link sent: an earlier one's parts landed after all.
  let p := if p.held > p.next then { p with next := p.held, position := p.held } else p
  if t.window < maximumWindow ∧ t.window ≤ p.acceptedSinceGrowth then
    sendParts c { t with window := t.window + 1 } n { p with acceptedSinceGrowth := 0 }
  else t.sendParts c n p

/-! ## Answers -/

/-- The `k`-th answer of the link is taken by the task that waits for it. -/
def answer (t : DaemonFileUpload) (k : ℕ) : DaemonFileUpload :=
  match t.link with
  | none => t
  | some n =>
    match (t.wires n).answers[k]? with
    | none => t
    | some reply =>
      let rest := t.setWire n { t.wires n with answers := (t.wires n).answers.eraseIdx k }
      match t.stage with
      | .begin true =>
        match reply.code, reply.path with
        | .success, some path => { rest with path := some path, stage := .transfer 0 false }
        | _, _ => { rest.drop with stage := .failed }
      | .asking _ =>
        if reply.code = .success then
          let held := reply.offset.getD 0
          if held ≥ c.content.length then { rest with stage := .transfer held false }
          else rest.startPump c n held
        else rest.fail c
      | .pump p =>
        if reply.code = .success then rest.accepted c n p (reply.offset.getD 0)
        -- The host holds something other than what was sent against.
        else if reply.code = .invalidRequest ∧ reply.offset.isSome then
          { rest.drop with stage := .transfer p.held true }
        else rest.fail c
      | _ => t

/-- The link is lost, or has answered nothing for `replyTimeout`. -/
def lose (t : DaemonFileUpload) (quiet : Bool) : DaemonFileUpload :=
  if t.link.isSome then { t with lost := true, timedOut := t.timedOut || quiet } else t

/-- A request over a lost link is given up. -/
def noReply (t : DaemonFileUpload) : DaemonFileUpload :=
  if t.lost then
    match t.stage with
    | .begin true => { t.drop with stage := .begin false }
    | .asking held => { t.drop with stage := .transfer held true }
    | .pump p =>
      { t.drop with
        window := if t.timedOut then max 1 (t.window / 2) else t.window
        stage := .transfer p.held true }
    | _ => t
  else t

/-! ## The loops -/

/-- One turn of the loop of `begin` or of `transfer`; without a link it makes one, or fails to. -/
def turn (t : DaemonFileUpload) (answered : Bool) : DaemonFileUpload :=
  match t.stage with
  | .begin false =>
    match t.live with
    | none => t.connect answered
    | some n => { t.setWire n ((t.wires n).send [beginRequest c]) with stage := .begin true }
  | .transfer held mustAsk =>
    if held < c.content.length then
      match t.live with
      | none => t.connect answered
      | some n =>
        if mustAsk then { t.setWire n ((t.wires n).send [askRequest c]) with stage := .asking held }
        else t.startPump c n held
    -- Read to the end, but an edit in place keeps the size.
    else if t.edits = 0 then { t.drop with stage := .returned }
    else t.fail c
  | _ => t

/-- Nothing has moved for `stallLimit`, or the task is cancelled. -/
def giveUp (t : DaemonFileUpload) (cancelled : Bool) : DaemonFileUpload :=
  match t.stage with
  | .returned => t
  | .failed => t
  | .begin _ => if cancelled then t.fail c else { t.drop with stage := .failed }
  | _ => t.fail c

/-! ## The host -/

/-- The upload folder keeps its name, when it has one. -/
def Names (world : World) : Prop := ∀ root ∈ world.root.join, root = c.root

instance (world : World) : Decidable (Names c world) :=
  inferInstanceAs (Decidable (∀ root ∈ world.root.join, root = c.root))

/-- The host takes the next request of a link. -/
def deliver (t : DaemonFileUpload) (n : ℕ) (world : World) : DaemonFileUpload :=
  match (t.wires n).sent with
  | [] => t
  | message :: sent =>
    let w := t.wires n
    let answers := ((t.host.store.uploadFile safeName world message).map Prod.snd).toList
    { t.setWire n
      { w with sent, answers := if w.broken then w.answers else w.answers ++ answers } with
      host := t.host.step safeName (.request message world c.content) }

/-- What is not about this copy. -/
def Spares : FileUploadStore.Event → Prop
  | .request message world _ => message.upload ≠ some c.id ∧ c.id ∉ world.drawn
  | .expireIdle _ => True

instance : ∀ e, Decidable (Spares c e)
  | .request message world _ =>
    inferInstanceAs (Decidable (message.upload ≠ some c.id ∧ c.id ∉ world.drawn))
  | .expireIdle _ => inferInstanceAs (Decidable True)

/-! ## Runs -/

inductive Event
  | turn (answered : Bool)
  | answer (k : ℕ)
  | lose (quiet : Bool)
  | noReply
  | giveUp (cancelled : Bool)
  /-- The file is written to. -/
  | edit (content : List UInt8)
  | deliver (n : ℕ) (world : World)
  /-- A link that was made breaks, after `k` of what is on its way. -/
  | cut (n k : ℕ)
  | other (event : FileUploadStore.Event)

def step (t : DaemonFileUpload) : Event → DaemonFileUpload
  | .turn answered => t.turn c answered
  | .answer k => t.answer c k
  | .lose quiet => t.lose quiet
  | .noReply => t.noReply
  | .giveUp cancelled => t.giveUp c cancelled
  | .edit content => { t with content, edits := t.edits + 1 }
  | .deliver n world => if Names c world then t.deliver safeName c n world else t
  | .cut n k =>
    if n < t.made then t.setWire n
      { t.wires n with sent := (t.wires n).sent.take k, broken := true } else t
  | .other event => if Spares c event then { t with host := t.host.step safeName event } else t

def after (es : List Event) : DaemonFileUpload :=
  Run.after (step safeName c) { content := c.content } es

end DaemonFileUpload
