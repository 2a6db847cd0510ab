import QnscKb.Lib.Runs
import QnscKb.Sync.Adapters

/-!
# Sync — Cursors

The walks of one selected scope, seen from its cursor row: `sync_cloud_connector`
(`src/domain/cloud_sync.py`) chooses the cursor to ask with and stores the next one, the
reconciliation passes ask for a full walk, and `purge_knowledge_base` (`src/domain/kb_purge.py`)
resets the row.

What a provider answers is a parameter.  A delta without a token replays the scope from empty; a
start token is for the changes from now on.
-/

namespace QnscKb.Sync
open Cursor Runs

/-! ### Providers -/

/-- A file that is in the scope. -/
structure RemoteFile where
  externalId : String
  name : Text
  mimeType : Option Text
  deriving DecidableEq

/-- A file the knowledge base imports. -/
def RemoteFile.supported (file : RemoteFile) : Bool :=
  isFile file.mimeType && (unsupportedReason file.name file.mimeType).isNone

/-- Microsoft Graph during a walk: a delta without a token leads to a page with every file. -/
structure GraphService (scope : SourceScope) where
  get : String → Except ProviderError GraphPage
  content : List RemoteFile
  enumerates : ∀ file ∈ content, ∃ page, Reaches (graphFeed get) (graphDeltaUrl scope) page ∧
    ∃ item ∈ page.items, item.id = file.externalId ∧ item.deleted = false

/-- Google Drive during a walk: nothing has changed since the start token it hands out. -/
structure DriveService where
  api : DriveApi
  content : List RemoteFile
  startsNow : ∀ token, api.startPageToken = .ok token →
    ∀ page, Reaches (driveFeed api) token page → page.items = []

/-- The provider of a connector's system. -/
inductive Service (scope : SourceScope) : System → Type where
  | sharepoint (service : GraphService scope) : Service scope .sharepoint
  | onedrive (service : GraphService scope) : Service scope .onedrive
  | googleDrive (service : DriveService) : Service scope .googleDrive

namespace Service

variable {scope : SourceScope} {system : System}

def content : Service scope system → List RemoteFile
  | .sharepoint g | .onedrive g => g.content
  | .googleDrive d => d.content

def incrementalChanges (fuel : Nat) (cursor : Option String) : Service scope system →
    Option (Except ProviderError (List NormalizedChange × Option String))
  | .sharepoint g | .onedrive g => graphIncrementalChanges g.get scope fuel cursor
  | .googleDrive d => driveIncrementalChanges d.api scope fuel cursor

end Service

/-! ### The row -/

inductive CursorStatus
  | ready | invalid | reconcile
  deriving DecidableEq, Repr

/-- A row of `sync_cursors`. -/
structure SyncCursor where
  cursorValue : Option String
  status : CursorStatus
  fullSyncRequired : Bool
  deriving DecidableEq, Repr

/-- `SyncCursor(...)` with its defaults. -/
def SyncCursor.fresh : SyncCursor := ⟨none, .ready, false⟩

/-- The row of the scope, if there is one, and the files the walks have reported since the last
reset of the cursor. -/
structure ScopeState where
  cursor : Option SyncCursor
  reported : List String

def storedCursor (s : ScopeState) : Option String := truthy (s.cursor.bind (·.cursorValue))

def reconciliationRequested (s : ScopeState) : Bool := s.cursor.all (·.fullSyncRequired)

def walkCursor (system : System) (s : ScopeState) : Option String :=
  if reconciliationRequested s && system.fullWalkIsAuthoritative then none
  else s.cursor.bind (·.cursorValue)

/-- The codes of an expired delta. -/
def RESYNC_CODES : List String := ["410", "resync_required", "sync_state_not_found", "invalid_delta"]

def reportedFiles (changes : List NormalizedChange) : List String :=
  (changes.filter fun change => change.state == .active).map (·.externalId)

/-- A full reconciliation is scheduled. -/
def expireCursor (s : ScopeState) : ScopeState :=
  { s with cursor := some ⟨none, .invalid, true⟩ }

def storeCursor (s : ScopeState) (nextCursor : Option String) : ScopeState :=
  { s with cursor := some ⟨(truthy nextCursor).or (s.cursor.bind (·.cursorValue)), .ready, false⟩ }

def report (s : ScopeState) (changes : List NormalizedChange) : ScopeState :=
  { s with reported := s.reported ++ reportedFiles changes }

/-! ### Steps -/

inductive CursorAction (scope : SourceScope) (system : System) where
  /-- `purge_knowledge_base`. -/
  | purge
  /-- A reconciliation pass. -/
  | reconcile
  /-- A walk that reads at most so many pages; `aborted` where an item ends it before its cursor
  is stored. -/
  | walk (service : Service scope system) (fuel : Nat) (aborted : Bool)

inductive CursorEvent (scope : SourceScope) (system : System) where
  | completed (service : Service scope system) (changes : List NormalizedChange)
  | quiet

variable {scope : SourceScope} {system : System}

def nextCursor (s : ScopeState) :
    CursorAction scope system → Option (CursorEvent scope system × ScopeState)
  | .purge =>
    some (.quiet, ⟨s.cursor.map fun _ => ⟨none, .reconcile, true⟩, []⟩)
  | .reconcile =>
    let row := s.cursor.getD .fresh
    some (.quiet, { s with cursor := some ⟨row.cursorValue, .reconcile, true⟩ })
  | .walk service fuel aborted =>
    match service.incrementalChanges fuel (walkCursor system s) with
    | none => none
    | some (.error e) =>
      if RESYNC_CODES.contains e.code then some (.quiet, expireCursor s) else some (.quiet, s)
    | some (.ok (changes, next)) =>
      if aborted then some (.quiet, report s changes)
      else some (.completed service changes, storeCursor (report s changes) next)

def CursorInitial (s : ScopeState) : Prop := s.cursor = none ∧ s.reported = []

theorem nextCursor_completed {s t : ScopeState} {a : CursorAction scope system}
    {service : Service scope system} {changes : List NormalizedChange}
    (h : nextCursor s a = some (.completed service changes, t)) :
    ∃ fuel next, service.incrementalChanges fuel (walkCursor system s) =
      some (.ok (changes, next)) := by
  cases a with
  | purge => cases h
  | reconcile => cases h
  | walk walked fuel aborted =>
    simp only [nextCursor] at h
    split at h
    · cases h
    · split at h
      · cases h
      · cases h
    · rename_i walked' next hwalk
      split at h
      · cases h
      · cases h
        exact ⟨fuel, next, hwalk⟩

end QnscKb.Sync
