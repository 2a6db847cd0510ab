import Mathlib.Algebra.Group.Nat.Defs
import QnscKb.Lib.Runs
import QnscKb.Lib.Text

/-!
# Outbox — Model

Domain events (`src/domain/events.py`) and the two tasks that carry them out
(`src/workers/tasks.py`): `EventBus.publish` writes a row and sends one message,
`replay_outbox_task` sends another for every row whose time has come, and `handle_domain_event_task`
queues the work.

A row is locked from its selection to the commit, so a task is one step on its rows.  Messages are
handed to the broker after that; it may delay a message, deliver it more than once or refuse it, in
which case `publish` runs the lifecycle itself.  Cache invalidation is left out: it touches neither
rows nor messages.
-/

namespace QnscKb.Outbox

open Runs

inductive EventType
  | articlePublished | articleUpdated | permissionChanged | articleDeleted
  | other (name : Text)
  deriving DecidableEq

inductive OutboxStatus
  | pending | processing | failed | dispatched | completed | dead
  deriving DecidableEq, Repr

/-- `_OUTBOX_SETTLED`: handled, or given up on. -/
def OutboxStatus.settled : OutboxStatus → Bool
  | .dispatched | .completed | .dead => true
  | .pending | .processing | .failed => false

/-- A row of `outbox_events`; its id is its place in the table.  Times are seconds. -/
structure OutboxEvent where
  eventType : EventType
  articleId : Option Nat
  status : OutboxStatus
  attempts : Nat
  nextAttemptAt : Nat
  lastError : Option Text
  completedAt : Option Nat
  deadAt : Option Nat
  deriving DecidableEq

/-- The row `publish` inserts. -/
def OutboxEvent.published (eventType : EventType) (articleId : Option Nat) (now : Nat) :
    OutboxEvent where
  eventType := eventType
  articleId := articleId
  status := .pending
  attempts := 0
  nextAttemptAt := now
  lastError := none
  completedAt := none
  deadAt := none

/-- A task that a domain event queues. -/
inductive Work
  | generateEmbeddings (articleId : Nat)
  | recomputePermissions (articleId : Nat)
  | deleteArticleChunks (articleId : Nat)
  deriving DecidableEq

/-- `_fan_out`: the task to queue, where there is one. -/
def fanOut (eventType : EventType) (articleId : Option Nat) : Option Work :=
  articleId.bind fun articleId =>
    match eventType with
    | .articlePublished | .articleUpdated => some (.generateEmbeddings articleId)
    | .permissionChanged => some (.recomputePermissions articleId)
    | .articleDeleted => some (.deleteArticleChunks articleId)
    | .other _ => none

/-! ### Messages -/

inductive Sender
  | publisher | replay
  deriving DecidableEq, Repr

/-- `held`: not handed to the broker yet; `inProcess`: the broker refused it, and the publishing
process runs the lifecycle itself. -/
inductive Stage
  | held | queued | delivered | inProcess | ended
  deriving DecidableEq, Repr

/-- A message of `handle_domain_event_task`; `outboxId` is absent where the row could not be
written. -/
structure Message where
  eventType : EventType
  articleId : Option Nat
  outboxId : Option Nat
  sender : Sender
  stage : Stage
  deriving DecidableEq

def Message.undelivered (m : Message) : Bool :=
  m.stage == .held || m.stage == .queued

def OutboxEvent.message (e : OutboxEvent) (i : Nat) : Message where
  eventType := e.eventType
  articleId := e.articleId
  outboxId := some i
  sender := .replay
  stage := .held

structure State where
  events : List OutboxEvent
  messages : List Message
  /-- What the fan-outs queued. -/
  work : List Work
  now : Nat

def State.setEvent (s : State) (i : Nat) (f : OutboxEvent → OutboxEvent) : State :=
  { s with events := s.events.modify i f }

def State.setStage (s : State) (m : Nat) (stage : Stage) : State :=
  { s with messages := s.messages.modify m fun message => { message with stage := stage } }

/-- `EventBus.publish` up to the message; `persisted`: the row was written. -/
def State.publish (s : State) (eventType : EventType) (articleId : Option Nat)
    (persisted : Bool) : State :=
  { s with
    events := if persisted then s.events ++ [.published eventType articleId s.now] else s.events
    messages := s.messages ++
      [⟨eventType, articleId, if persisted then some s.events.length else none, .publisher, .held⟩] }

/-! ### `replay_outbox_task` -/

def OUTBOX_MAX_ATTEMPTS : Nat := 5

/-- Minutes to the next attempt. -/
def backoffMinutes (attempts : Nat) : Nat := min 30 (2 ^ min attempts 5)

def OutboxEvent.due (e : OutboxEvent) (now : Nat) : Bool :=
  !e.status.settled && e.nextAttemptAt ≤ now

/-- The rows a tick selects, oldest first: it skips what another transaction has locked. -/
def State.claimable (s : State) (locked : List Nat) : List Nat :=
  ((List.range s.events.length).filter fun i =>
    !locked.contains i && (s.events[i]?).any fun e => e.due s.now).take 100

def OutboxEvent.claimed (e : OutboxEvent) (now : Nat) : OutboxEvent :=
  if e.attempts ≥ OUTBOX_MAX_ATTEMPTS then { e with status := .dead, deadAt := some now }
  else
    { e with
      status := .processing
      attempts := e.attempts + 1
      nextAttemptAt := now + 60 * backoffMinutes (e.attempts + 1) }

/-- The messages a tick sends for the rows it selected. -/
def State.dispatchable (s : State) (claimed : List Nat) : List Message :=
  claimed.filterMap fun i => (s.events[i]?).bind fun e =>
    if e.attempts ≥ OUTBOX_MAX_ATTEMPTS then none else some (e.message i)

def State.replay (s : State) (claimed : List Nat) : State :=
  { s with
    events := s.events.mapIdx fun i e => if claimed.contains i then e.claimed s.now else e
    messages := s.messages ++ s.dispatchable claimed }

/-! ### `handle_domain_event_task` -/

/-- How a delivery that runs `_fan_out` goes. -/
inductive Outcome
  | raises | commitFails | succeeds
  deriving DecidableEq, Repr

/-- `_fan_out` has queued its task. -/
def Outcome.fannedOut : Outcome → Bool
  | .raises => false
  | .commitFails | .succeeds => true

/-- The row of a message is settled: another copy of it has nothing to do. -/
def State.settledRow (s : State) (message : Message) : Bool :=
  (message.outboxId.bind fun i => s.events[i]?).any fun e => e.status.settled

/-- Queueing a task can raise; without a task `_fan_out` cannot, and without a row there is no
transaction to commit. -/
def Message.allows (message : Message) : Outcome → Bool
  | .raises => (fanOut message.eventType message.articleId).isSome
  | .commitFails => message.outboxId.isSome
  | .succeeds => true

def OutboxEvent.dispatched (e : OutboxEvent) : OutboxEvent :=
  { e with status := .dispatched, lastError := none }

/-- `claim_and_dispatch` of a row that is not settled. -/
def State.handle (s : State) (message : Message) (outcome : Outcome) : State :=
  let s := if outcome.fannedOut then
      { s with work := s.work ++ (fanOut message.eventType message.articleId).toList }
    else s
  match message.outboxId, outcome with
  | some i, .succeeds => s.setEvent i .dispatched
  | _, _ => s

/-- `_mark_outbox` at the end of a lifecycle that ran in process. -/
def OutboxEvent.marked (e : OutboxEvent) (error : Option Text) (now : Nat) : OutboxEvent :=
  match error with
  | none => { e with status := .completed, lastError := none, completedAt := some now }
  | some _ => { e with status := .failed, lastError := error }

def State.markOutbox (s : State) (outboxId : Option Nat) (error : Option Text) : State :=
  match outboxId with
  | some i => s.setEvent i fun e => e.marked error s.now
  | none => s

/-! ### Steps -/

inductive Action
  | publish (eventType : EventType) (articleId : Option Nat) (persisted : Bool)
  /-- A message is handed to the broker, which takes it or not. -/
  | send (m : Nat) (taken : Bool)
  | replay (locked : List Nat)
  | deliver (m : Nat) (outcome : Outcome)
  | lifecycleEnds (m : Nat) (error : Option Text)
  | wait (seconds : Nat)

/-- What a step does to the rows. -/
inductive Event
  | replayed (claimed : List Nat)
  | fannedOut (outboxId : Option Nat) (outcome : Outcome)
  | ignored (i : Nat)
  | marked (outboxId : Option Nat) (completed : Bool)
  | quiet
  deriving DecidableEq

def next (s : State) : Action → Option (Event × State)
  | .publish eventType articleId persisted =>
    some (.quiet, s.publish eventType articleId persisted)
  | .send m taken =>
    (s.messages[m]?).bind fun message =>
      if message.stage = .held then
        if taken then some (.quiet, s.setStage m .queued)
        -- A tick whose message is refused ends there: its other messages stay with it.
        else if message.sender = .publisher then some (.quiet, s.setStage m .inProcess)
        else none
      else none
  | .replay locked => some (.replayed (s.claimable locked), s.replay (s.claimable locked))
  | .deliver m outcome =>
    (s.messages[m]?).bind fun message =>
      if message.stage = .queued ∨ message.stage = .delivered then
        let t := s.setStage m .delivered
        match s.settledRow message, message.outboxId with
        | true, some i => some (.ignored i, t)
        | _, _ =>
          if message.allows outcome then
            some (.fannedOut message.outboxId outcome, t.handle message outcome)
          else none
      else none
  | .lifecycleEnds m error =>
    (s.messages[m]?).bind fun message =>
      -- Without an article there is no lifecycle that could fail.
      if message.stage = .inProcess ∧ (message.articleId.isSome ∨ error.isNone) then
        some (.marked message.outboxId error.isNone,
          (s.setStage m .ended).markOutbox message.outboxId error)
      else none
  | .wait seconds => some (.quiet, { s with now := s.now + seconds })

def Initial (s : State) : Prop := s.events = [] ∧ s.messages = []

abbrev Step : State → Event → State → Prop := Runs.By next

end QnscKb.Outbox
