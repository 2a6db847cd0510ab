import QnscKb.Access.Model
import QnscKb.Lib.ForeignKeys

/-!
# Purge — Model

`purge_knowledge_base` (`src/domain/kb_purge.py`): the dry run and the real run, over the tables a
purge selects from and those its deletions cascade into (`src/models/`).
-/

namespace QnscKb.Purge
open Access (Id)

/-! ### The tables -/

inductive Table
  | users | connectors
  | aiCache | aiConversations | aiMessages | aiUsageLogs | aiFeedback | notificationQueue
  | ingestionFingerprints | gaps | conflictRecords | indexReprocessJobs
  | pendingDrafts | draftTransitions | draftCandidates
  | documentSources | documentEvidence | parentChunks | articleChunks | chunkMetadata
  | articles | articleDepartments | articleVersions | articleUserPermissions | articleTags
  | articleDigests | articleEditRequests | articleEntityMentions | comments | votes | bookmarks
  | articleFollowers | graphRelationships
  | externalDocuments | documentVersions | permissionSnapshots | externalAclPrincipals
  | syncErrors | syncCursors | syncRequests | connectorNotifications
  | outboxEvents
  deriving DecidableEq

inductive Column
  | userId | ownerUserId | recipientUserId | connectorId
  | articleId | updateTargetArticleId | draftId | documentSourceId | evidenceId | parentChunkId
  | chunkId | conversationId | usageLogId | aiUsageLogId | externalDocumentId
  | permissionSnapshotId
  deriving DecidableEq

/-- The foreign keys into the tables a purge selects from or deletes from; `users` and `connectors`
are kept. -/
def foreignKeys : List (ForeignKeys.Key Table Column) :=
  [⟨.aiCache, .ownerUserId, .users, .cascade⟩,
    ⟨.aiConversations, .userId, .users, .cascade⟩,
    ⟨.aiUsageLogs, .userId, .users, .setNull⟩,
    ⟨.notificationQueue, .recipientUserId, .users, .cascade⟩,
    ⟨.aiMessages, .conversationId, .aiConversations, .cascade⟩,
    ⟨.aiMessages, .usageLogId, .aiUsageLogs, .setNull⟩,
    ⟨.aiFeedback, .aiUsageLogId, .aiUsageLogs, .cascade⟩,
    ⟨.ingestionFingerprints, .draftId, .pendingDrafts, .setNull⟩,
    ⟨.ingestionFingerprints, .articleId, .articles, .setNull⟩,
    ⟨.pendingDrafts, .updateTargetArticleId, .articles, .setNull⟩,
    ⟨.pendingDrafts, .externalDocumentId, .externalDocuments, .setNull⟩,
    ⟨.draftTransitions, .draftId, .pendingDrafts, .cascade⟩,
    ⟨.draftCandidates, .draftId, .pendingDrafts, .cascade⟩,
    ⟨.documentSources, .articleId, .articles, .setNull⟩,
    ⟨.documentEvidence, .articleId, .articles, .cascade⟩,
    ⟨.documentEvidence, .documentSourceId, .documentSources, .cascade⟩,
    ⟨.parentChunks, .articleId, .articles, .cascade⟩,
    ⟨.parentChunks, .evidenceId, .documentEvidence, .cascade⟩,
    ⟨.articleChunks, .articleId, .articles, .cascade⟩,
    ⟨.articleChunks, .parentChunkId, .parentChunks, .cascade⟩,
    ⟨.articleChunks, .evidenceId, .documentEvidence, .cascade⟩,
    ⟨.chunkMetadata, .chunkId, .articleChunks, .cascade⟩,
    ⟨.articleDepartments, .articleId, .articles, .cascade⟩,
    ⟨.articleVersions, .articleId, .articles, .cascade⟩,
    ⟨.articleUserPermissions, .articleId, .articles, .cascade⟩,
    ⟨.articleTags, .articleId, .articles, .cascade⟩,
    ⟨.articleDigests, .articleId, .articles, .cascade⟩,
    ⟨.articleEditRequests, .articleId, .articles, .cascade⟩,
    ⟨.articleEntityMentions, .articleId, .articles, .cascade⟩,
    ⟨.comments, .articleId, .articles, .cascade⟩,
    ⟨.votes, .articleId, .articles, .cascade⟩,
    ⟨.bookmarks, .articleId, .articles, .cascade⟩,
    ⟨.articleFollowers, .articleId, .articles, .cascade⟩,
    ⟨.graphRelationships, .articleId, .articles, .setNull⟩,
    ⟨.externalDocuments, .connectorId, .connectors, .cascade⟩,
    ⟨.externalDocuments, .articleId, .articles, .setNull⟩,
    ⟨.documentVersions, .externalDocumentId, .externalDocuments, .cascade⟩,
    ⟨.permissionSnapshots, .externalDocumentId, .externalDocuments, .cascade⟩,
    ⟨.externalAclPrincipals, .permissionSnapshotId, .permissionSnapshots, .cascade⟩,
    ⟨.syncErrors, .connectorId, .connectors, .cascade⟩,
    ⟨.syncErrors, .externalDocumentId, .externalDocuments, .setNull⟩,
    ⟨.syncCursors, .connectorId, .connectors, .cascade⟩,
    ⟨.syncRequests, .connectorId, .connectors, .cascade⟩,
    ⟨.connectorNotifications, .connectorId, .connectors, .cascade⟩]

/-- The other columns a purge reads or writes, each where the table has it. -/
structure Data where
  companyDomain : Option String
  storageKey : Option String
  status : String
  /-- `payload["article_id"]` of an outbox event. -/
  payloadArticleId : Option Id
  cursorValue : Option String
  fullSyncRequired : Bool
  lastSuccessAt : Option Nat
  lastError : Option String
  deriving DecidableEq

abbrev Row := ForeignKeys.Row Table Column Id Data

/-! ### The statements -/

/-- `WHERE company_domain = company`. -/
def ofCompany (table : Table) (company : String) (row : Row) : Bool :=
  row.table == table && row.data.companyDomain == some company

/-- `SELECT id … WHERE company_domain = company`. -/
def idsOf (table : Table) (company : String) (db : List Row) : List Id :=
  (db.filter (ofCompany table company)).map ForeignKeys.Row.key

/-- `WHERE column IN ids`. -/
def inIds (table : Table) (column : Column) (ids : List Id) (row : Row) : Bool :=
  row.table == table && ids.any fun id => row.refs.contains (column, id)

/-- Undispatched events that name one of the articles. -/
def pendingEvents (articleIds : List Id) (row : Row) : Bool :=
  row.table == .outboxEvents && row.data.status == "pending" &&
    row.data.payloadArticleId.any articleIds.contains

/-- The counts of `PurgeCounts`. -/
inductive Field
  | articles | documentSources | pendingDrafts | externalDocuments | connectors
  | syncCursorsReset | syncRequests | connectorNotifications | ingestionFingerprints | gaps
  | conflictRecords | indexReprocessJobs | aiCache | aiConversations | aiUsageLogs
  | notifications | outboxEvents | storageObjects
  deriving DecidableEq

abbrev PurgeCounts := Field → Nat

/-- A statement over one table: which rows it selects, from the database as it is by then, and the
count that reports them. -/
structure Statement where
  field : Field
  table : Table
  select : List Row → Row → Bool

/-- What the real run does with the rows of a statement. -/
inductive Effect
  | delete
  | update (f : Data → Data)

def resetCursor (data : Data) : Data :=
  { data with
    cursorValue := none
    fullSyncRequired := true
    status := "reconcile"
    lastSuccessAt := none
    lastError := none }

def companyStatement (field : Field) (table : Table) (company : String) : Statement :=
  ⟨field, table, fun _ => ofCompany table company⟩

def userStatement (field : Field) (table : Table) (column : Column) (userIds : List Id) :
    Statement :=
  ⟨field, table, fun _ => inIds table column userIds⟩

/-- Over the rows of the articles or connectors there are by then. -/
def ownedStatement (field : Field) (table : Table) (column : Column) (owner : Table)
    (company : String) : Statement :=
  ⟨field, table, fun db => inIds table column (idsOf owner company db)⟩

def storageKeys (company : String) (db : List Row) : List String :=
  let keysOf (p : Row → Bool) := (db.filter p).filterMap fun row => row.data.storageKey
  let documentIds := (db.filter
    (inIds .externalDocuments .connectorId (idsOf .connectors company db))).map
      ForeignKeys.Row.key
  let keys := keysOf (inIds .documentSources .articleId (idsOf .articles company db)) ++
    keysOf (ofCompany .pendingDrafts company) ++
    keysOf (inIds .documentVersions .externalDocumentId documentIds)
  ((keys.filter (· != "")).dedup).mergeSort fun a b => decide (a ≤ b)

def forecasts (company : String) (userIds : List Id) : List Statement :=
  [companyStatement .articles .articles company,
    companyStatement .connectors .connectors company,
    ownedStatement .documentSources .documentSources .articleId .articles company,
    companyStatement .pendingDrafts .pendingDrafts company,
    ownedStatement .externalDocuments .externalDocuments .connectorId .connectors company,
    companyStatement .ingestionFingerprints .ingestionFingerprints company,
    companyStatement .gaps .gaps company,
    companyStatement .conflictRecords .conflictRecords company,
    companyStatement .indexReprocessJobs .indexReprocessJobs company,
    ownedStatement .syncCursorsReset .syncCursors .connectorId .connectors company] ++
  if userIds.isEmpty then [] else
    [userStatement .aiCache .aiCache .ownerUserId userIds,
      userStatement .aiConversations .aiConversations .userId userIds,
      userStatement .aiUsageLogs .aiUsageLogs .userId userIds]

def PurgeCounts.set (counts : PurgeCounts) (field : Field) (n : Nat) : PurgeCounts :=
  Function.update counts field n

/-- `purge_knowledge_base(dry_run=True)`. -/
def dryRun (company : String) (db : List Row) : PurgeCounts :=
  let counts : PurgeCounts := (forecasts company (idsOf .users company db)).foldl
    (fun counts s => counts.set s.field (db.countP (s.select db))) fun _ => 0
  counts.set .storageObjects (storageKeys company db).length

structure Run where
  db : List Row
  counts : PurgeCounts

def Run.step (run : Run) (s : Statement × Effect) : Run where
  db := match s.2 with
    | .delete => ForeignKeys.delete foreignKeys (s.1.select run.db) run.db
    | .update f => run.db.map fun row =>
      if s.1.select run.db row then { row with data := f row.data } else row
  counts := run.counts.set s.1.field (run.db.countP (s.1.select run.db))

def statements (company : String) (userIds articleIds : List Id) : List (Statement × Effect) :=
  (if userIds.isEmpty then [] else
    [(userStatement .aiCache .aiCache .ownerUserId userIds, .delete),
      (userStatement .aiConversations .aiConversations .userId userIds, .delete),
      (userStatement .aiUsageLogs .aiUsageLogs .userId userIds, .delete),
      (userStatement .notifications .notificationQueue .recipientUserId userIds, .delete)]) ++
  [(companyStatement .ingestionFingerprints .ingestionFingerprints company, .delete),
    (companyStatement .gaps .gaps company, .delete),
    (companyStatement .conflictRecords .conflictRecords company, .delete),
    (companyStatement .indexReprocessJobs .indexReprocessJobs company, .delete),
    (companyStatement .pendingDrafts .pendingDrafts company, .delete),
    (ownedStatement .documentSources .documentSources .articleId .articles company, .delete),
    (companyStatement .articles .articles company, .delete),
    (ownedStatement .externalDocuments .externalDocuments .connectorId .connectors company,
      .delete),
    (ownedStatement .syncCursorsReset .syncCursors .connectorId .connectors company,
      .update resetCursor),
    (ownedStatement .syncRequests .syncRequests .connectorId .connectors company, .delete),
    (ownedStatement .connectorNotifications .connectorNotifications .connectorId .connectors
      company, .delete)] ++
  if articleIds.isEmpty then [] else
    [(⟨.outboxEvents, .outboxEvents, fun _ => pendingEvents articleIds⟩, .delete)]

/-- `purge_knowledge_base(dry_run=False)`. -/
def realRun (company : String) (db : List Row) : Run :=
  let run := (statements company (idsOf .users company db) (idsOf .articles company db)).foldl
    Run.step ⟨db, fun _ => 0⟩
  { run with counts := run.counts.set .storageObjects (storageKeys company db).length }

end QnscKb.Purge
