import Mathlib.Algebra.Group.Nat.Defs
import Mathlib.Data.List.MinMax
import QnscKb.Lib.Runs
import QnscKb.Lib.Text

/-!
# Sync — Queue

The durable queue of connector work (`src/domain/sync_queue.py`), as database sessions that
interleave.  A session reads a request, changes its object and flushes what changed, an `UPDATE` by
id whatever the row holds by then.  Only `claim_sync_request` locks, the row and its connector.
`expire_on_commit` is off, so a session may go on with an object it loaded earlier (`memory`).

The connector job beside a request is left out: nothing here reads it.
-/

namespace QnscKb.Sync

/-! ### Requests -/

inductive RequestStatus
  | queued | dispatched | running | completed | failed
  deriving DecidableEq, Repr

inductive Reason
  | notification | polling | webhook | manual | reconcile
  deriving DecidableEq, Repr

/-- A row of `sync_requests`; its id is its place in the table.  Times are seconds. -/
structure SyncRequest where
  connectorId : Nat
  scopeId : Option Nat
  reason : Reason
  priority : Nat
  status : RequestStatus
  attempts : Nat
  availableAt : Nat
  lockedAt : Option Nat
  startedAt : Option Nat
  completedAt : Option Nat
  lastError : Option Text
  deriving DecidableEq

/-- A provider walk may be under way. -/
def SyncRequest.inFlight (r : SyncRequest) : Bool :=
  r.status == .dispatched || r.status == .running

/-- `INSERT` of a request. -/
def SyncRequest.enqueued (connectorId : Nat) (scopeId : Option Nat) (reason : Reason)
    (priority now : Nat) : SyncRequest where
  connectorId := connectorId
  scopeId := scopeId
  reason := reason
  priority := priority
  status := .queued
  attempts := 0
  availableAt := now
  lockedAt := none
  startedAt := none
  completedAt := none
  lastError := none

/-- The value a flush leaves in a column: the object's where it was changed, else the row's. -/
def flushed {α : Type} [DecidableEq α] (loaded changed row : α) : α :=
  if changed = loaded then row else changed

/-- `UPDATE` of a row with what an object changed since it was loaded. -/
def SyncRequest.flush (loaded changed row : SyncRequest) : SyncRequest :=
  { row with
    reason := flushed loaded.reason changed.reason row.reason
    priority := flushed loaded.priority changed.priority row.priority
    status := flushed loaded.status changed.status row.status
    attempts := flushed loaded.attempts changed.attempts row.attempts
    availableAt := flushed loaded.availableAt changed.availableAt row.availableAt
    lockedAt := flushed loaded.lockedAt changed.lockedAt row.lockedAt
    startedAt := flushed loaded.startedAt changed.startedAt row.startedAt
    completedAt := flushed loaded.completedAt changed.completedAt row.completedAt
    lastError := flushed loaded.lastError changed.lastError row.lastError }

/-! ### What the calls make of an object -/

/-- `enqueue_connector_sync` on a request that is still queued. -/
def SyncRequest.coalesced (r : SyncRequest) (reason : Reason) (priority now : Nat) : SyncRequest :=
  let moreUrgent := priority < r.priority
  { r with
    priority := if moreUrgent then priority else r.priority
    availableAt :=
      if moreUrgent ∨ reason = .manual ∨ reason = .webhook then min r.availableAt now
      else r.availableAt
    reason := if r.reason = .polling then reason else r.reason }

/-- `claim_sync_request`, once the connector is idle. -/
def SyncRequest.claimed (r : SyncRequest) (now : Nat) : SyncRequest :=
  { r with status := .dispatched, lockedAt := some now, attempts := r.attempts + 1 }

def SyncRequest.marked (r : SyncRequest) (now : Nat) : SyncRequest :=
  { r with status := .running, startedAt := some (r.startedAt.getD now) }

def SyncRequest.finished (r : SyncRequest) (success : Bool) (error : Option Text)
    (retryable : Bool) (now : Nat) : SyncRequest :=
  let r := { r with
    lockedAt := none
    lastError := match error with
      | some (c :: t) => some ((c :: t).take 2000)
      | _ => none }
  if success then { r with status := .completed, completedAt := some now }
  else if retryable ∧ r.attempts < 8 then
    { r with status := .queued, availableAt := now + min 1800 (2 ^ min r.attempts 10) }
  else { r with status := .failed }

/-- What `recover_stale_sync_requests` selects. -/
def SyncRequest.stale (r : SyncRequest) (staleAfterMinutes runningStaleAfterMinutes now : Nat) :
    Bool :=
  (r.status == .dispatched && r.lockedAt.all fun at_ => at_ + 60 * staleAfterMinutes < now) ||
    (r.status == .running &&
      r.startedAt.any fun at_ => at_ + 60 * runningStaleAfterMinutes < now)

/-- `recover_stale_sync_requests` on one of them. -/
def SyncRequest.recovered (r : SyncRequest) (now : Nat) : SyncRequest :=
  { r with
    status := .queued
    availableAt := now
    lockedAt := none
    lastError := some "Recovered after worker/process interruption".toList }

/-! ### Sessions -/

/-- A call a session makes. -/
inductive Call
  | enqueue (connectorId : Nat) (scopeId : Option Nat) (reason : Reason) (priority : Nat)
  | claim (request : Nat)
  | markRunning (request : Nat)
  | finish (request : Nat) (success : Bool) (error : Option Text) (retryable : Bool)
  | recoverStale (staleAfterMinutes runningStaleAfterMinutes : Nat)
  deriving DecidableEq

/-- How far a call is; `loaded` is a session's object as it was loaded. -/
inductive Phase
  | idle
  | called (call : Call)
  | coalescing (request : Nat) (loaded : SyncRequest) (reason : Reason) (priority : Nat)
  | inserting (connectorId : Nat) (scopeId : Option Nat) (reason : Reason) (priority : Nat)
  /-- The row is locked. -/
  | rowLocked (request : Nat) (loaded : SyncRequest)
  /-- Row and connector are locked, and the lookup has answered. -/
  | decided (request : Nat) (loaded : SyncRequest) (inFlight : Bool)
  | marking (request : Nat) (loaded : SyncRequest)
  | finishing (request : Nat) (loaded : SyncRequest) (success : Bool) (error : Option Text)
      (retryable : Bool)
  | recovering (rows : List (Nat × SyncRequest))
  deriving DecidableEq

/-- A database session: the objects it has loaded, the last first, and its call. -/
structure Session where
  memory : List (Nat × SyncRequest)
  phase : Phase
  deriving DecidableEq

structure State where
  requests : List SyncRequest
  sessions : List Session
  now : Nat
  deriving DecidableEq

def Phase.lockedRow : Phase → Option Nat
  | .rowLocked i _ => some i
  | .decided i _ _ => some i
  | _ => none

def Phase.lockedConnector : Phase → Option Nat
  | .decided _ loaded _ => some loaded.connectorId
  | _ => none

namespace State

def put (s : State) (k : Nat) (x : Session) : State := { s with sessions := s.sessions.set k x }

def rowBusy (s : State) (i : Nat) : Bool :=
  s.sessions.any fun x => x.phase.lockedRow == some i

def connectorBusy (s : State) (c : Nat) : Bool :=
  s.sessions.any fun x => x.phase.lockedConnector == some c

/-- `UPDATE` by id. -/
def write (s : State) (i : Nat) (loaded changed : SyncRequest) : State :=
  { s with requests := s.requests.modify i (SyncRequest.flush loaded changed) }

/-- The object a session gets for a row: the one it has, or the row. -/
def object (s : State) (x : Session) (cached : Bool) (i : Nat) : Option SyncRequest :=
  match if cached then x.memory.find? fun entry => entry.1 == i else none with
  | some entry => some entry.2
  | none => s.requests[i]?

/-- Another request of the connector is dispatched or running. -/
def inFlightBeside (s : State) (c i : Nat) : Bool :=
  (s.requests.zipIdx).any fun row => row.1.connectorId == c && row.2 != i && row.1.inFlight

/-- The queued request of a connector and scope that a new one is folded into. -/
def coalescible (s : State) (c : Nat) (scope : Option Nat) : Option Nat :=
  ((s.requests.zipIdx).filter fun row =>
    row.1.connectorId == c && row.1.scopeId == scope && row.1.status == .queued).argmin
      (fun row => row.1.priority) |>.map Prod.snd

end State

/-! ### Steps -/

/-- What a step does that others can tell. -/
inductive Event
  | quiet
  /-- `mark_sync_request_running` writes the status of the request. -/
  | marks (request : Nat)
  deriving DecidableEq, Repr

/-- The end of a call, with the object it leaves in the session. -/
def Session.done (x : Session) (i : Nat) (r : SyncRequest) : Session :=
  { memory := (i, r) :: x.memory, phase := .idle }

/-- The next step of a call.  `cached` says whether a load finds the object in the session. -/
def advance (s : State) (k : Nat) (cached : Bool) : Option (Event × State) := do
  let x ← s.sessions[k]?
  let stay := fun (phase : Phase) => some (Event.quiet, s.put k { x with phase := phase })
  match x.phase with
  | .idle => none
  | .called (.enqueue c scope reason priority) =>
    match s.coalescible c scope with
    | none => stay (.inserting c scope reason priority)
    | some i =>
      match s.object x cached i with
      | none => stay .idle
      | some r => stay (.coalescing i r reason priority)
  | .coalescing i r reason priority =>
    if s.rowBusy i then none
    else
      let changed := r.coalesced reason priority s.now
      some (.quiet, (s.write i r changed).put k (x.done i changed))
  | .inserting c scope reason priority =>
    let r := SyncRequest.enqueued c scope reason priority s.now
    some (.quiet, { s with requests := s.requests ++ [r] }.put k (x.done s.requests.length r))
  | .called (.claim i) =>
    match s.requests[i]? with
    | none => stay .idle
    | some row =>
      -- `SKIP LOCKED`
      if row.status = .queued ∧ row.availableAt ≤ s.now ∧ s.rowBusy i = false then
        match s.object x cached i with
        | none => stay .idle
        | some r => stay (.rowLocked i r)
      else stay .idle
  | .rowLocked i r =>
    if s.connectorBusy r.connectorId then none
    else stay (.decided i r (s.inFlightBeside r.connectorId i))
  | .decided i r inFlight =>
    if inFlight then some (.quiet, s.put k (x.done i r))
    else
      let changed := r.claimed s.now
      some (.quiet, (s.write i r changed).put k (x.done i changed))
  | .called (.markRunning i) =>
    match s.object x cached i with
    | none => stay .idle
    | some r => stay (.marking i r)
  | .marking i r =>
    if s.rowBusy i then none
    else
      let changed := r.marked s.now
      some (if r.status = .running then .quiet else .marks i,
        (s.write i r changed).put k (x.done i changed))
  | .called (.finish i success error retryable) =>
    match s.object x cached i with
    | none => stay .idle
    | some r => stay (.finishing i r success error retryable)
  | .finishing i r success error retryable =>
    if s.rowBusy i then none
    else
      let changed := r.finished success error retryable s.now
      some (.quiet, (s.write i r changed).put k (x.done i changed))
  | .called (.recoverStale dispatchedMinutes runningMinutes) =>
    let rows := (s.requests.zipIdx).filter fun row =>
      row.1.stale dispatchedMinutes runningMinutes s.now
    stay (.recovering (rows.filterMap fun row =>
      (s.object x cached row.2).map fun r => (row.2, r)))
  | .recovering rows =>
    if rows.any fun row => s.rowBusy row.1 then none
    else
      let written := rows.foldl (fun t row => t.write row.1 row.2 (row.2.recovered s.now)) s
      some (.quiet, written.put k
        { memory := rows.map (fun row => (row.1, row.2.recovered s.now)) ++ x.memory
          phase := .idle })

inductive Action
  /-- A session is opened. -/
  | openSession
  /-- A session that is idle makes a call. -/
  | call (session : Nat) (call : Call)
  | advance (session : Nat) (cached : Bool)
  /-- A session is rolled back or closed: its locks are released, its objects expired. -/
  | rollback (session : Nat)
  | tick (seconds : Nat)
  deriving DecidableEq

/-- One step of the system; `none` where a session waits or has no call to go on with. -/
def next (s : State) : Action → Option (Event × State)
  | .openSession => some (.quiet, { s with sessions := s.sessions ++ [⟨[], .idle⟩] })
  | .call k call => do
    let x ← s.sessions[k]?
    guard (x.phase = .idle)
    return (.quiet, s.put k { x with phase := .called call })
  | .advance k cached => advance s k cached
  | .rollback k => some (.quiet, s.put k ⟨[], .idle⟩)
  | .tick seconds => some (.quiet, { s with now := s.now + seconds })

abbrev Step : State → Event → State → Prop := Runs.By next

def Initial (s : State) : Prop := s.requests = [] ∧ s.sessions = []

end QnscKb.Sync
