import QnscKb.Lib.Runs
import QnscKb.Review.Queue
import QnscKb.Sync.Adapters

/-!
# Sync — Documents

What the walks of a connector do to its documents, and to the drafts and articles made of them
(`sync_cloud_connector`, `_upsert_document`, `_ingest_content`, `_record_item_failure`,
`_handle_deleted_document`, `src/domain/cloud_sync.py`), among the decisions of people on the same
drafts and articles (`src/domain/governance.py`, `src/domain/articles.py`).

One step processes one reported change, ends a walk with its sweep, or is one decision; permission
checks, which only refuse, are left out.  An item commits the row of its document before it
downloads: an error after that rolls back what followed, an error before it the row too.  A new
draft is committed (`submit_draft`, `update_draft`) in the middle of its item; what the item writes
after that is taken to commit with it.

`origin`, the document a draft or article has its content from, and the ledger of what each
document's reports came to are no columns.
-/

namespace QnscKb.Sync
open Review Runs

/-! ### Rows -/

/-- What `uq_external_document` makes unique within a connector.  The column refuses the corpus
`None`: an item of it ends early. -/
structure DocumentKey where
  corpusId : Option String
  externalId : String
  deriving DecidableEq, Repr

def NormalizedChange.key (change : NormalizedChange) : DocumentKey :=
  ⟨change.corpusId, change.externalId⟩

/-- `metadata_json["ingest_failure"]`. -/
structure IngestFailure where
  revision : String
  attempts : Nat
  deriving DecidableEq, Repr

/-- A row of `external_documents`. -/
structure ExternalDocument where
  key : DocumentKey
  scopeId : Nat
  mimeType : Option Text
  revision : Option String
  contentHash : Option String
  state : ChangeState
  articleId : Option Nat
  ingestFailure : Option IngestFailure
  deriving DecidableEq

/-- A draft of a document's content.  `externalDocument` is `external_document_id`; a draft split
off has none. -/
structure SourceDraft where
  id : Nat
  externalDocument : Option DocumentKey
  status : DraftStatus
  candidates : Bool
  updateTargetArticleId : Option Nat
  origin : DocumentKey
  deriving DecidableEq

/-- `Article.status`: what is not published is a draft, under review or archived. -/
inductive ArticleStatus
  | published
  | unpublished
  | deleted
  deriving DecidableEq, Repr

/-- An article of a document's content.  `lifecycleActive` is `lifecycle_status == "active"`. -/
structure SourceArticle where
  id : Nat
  lifecycleActive : Bool
  status : ArticleStatus
  origin : DocumentKey
  deriving DecidableEq

def SourceArticle.served (a : SourceArticle) : Bool := a.lifecycleActive && a.status == .published

/-- `status in ("draft", "pending")`. -/
def SourceDraft.isOpen (d : SourceDraft) : Bool := d.status == .draft || d.status == .pending

/-- The last report of a document. -/
inductive Report
  | present (revision : Option String) (supported : Bool)
  | deleted
  deriving DecidableEq, Repr

/-- What the reports of a document have come to: its latest supported revision, the one ingested
last, the failures, the last report, and whether people took it down. -/
structure Ledger where
  latest : Option (Option String)
  ingested : Option (Option String)
  failures : String → Nat
  report : Option Report
  takenDown : Bool

/-- A walk under way, with the items it has met. -/
structure Walk where
  scopeId : Nat
  full : Bool
  seen : List String

structure SourceState where
  documents : List ExternalDocument
  drafts : List SourceDraft
  articles : List SourceArticle
  nextId : Nat
  walk : Option Walk
  ledger : DocumentKey → Ledger

/-! ### Decisions -/

def revisionText (revision : Option String) : String := revision.getD ""

def MAX_ITEM_ATTEMPTS : Nat := 3

def isQuarantined (document : ExternalDocument) (revision : Option String) : Bool :=
  document.ingestFailure.any fun failure =>
    failure.revision == revisionText revision && decide (MAX_ITEM_ATTEMPTS ≤ failure.attempts)

def needsContentIngest (isFile previousExists : Bool)
    (previousRevision currentRevision : Option String)
    (hasContentHash pendingDraftNeedsCandidates : Bool) : Bool :=
  isFile && (!previousExists || previousRevision != currentRevision || !hasContentHash ||
    pendingDraftNeedsCandidates)

/-- The row of a downloaded version. -/
def ExternalDocument.holding (document : ExternalDocument) (change : NormalizedChange)
    (contentHash : String) : ExternalDocument :=
  { document with
    contentHash := some contentHash
    revision := change.revision
    state := .active }

def ExternalDocument.fresh (scopeId : Nat) (key : DocumentKey) : ExternalDocument where
  key := key
  scopeId := scopeId
  mimeType := none
  revision := none
  contentHash := none
  state := .active
  articleId := none
  ingestFailure := none

/-- `_upsert_document`: a tombstone without metadata only changes the state. -/
def upsertDocument (scopeId : Nat) (previous : Option ExternalDocument)
    (change : NormalizedChange) : ExternalDocument :=
  let document := previous.getD (.fresh scopeId change.key)
  let identified := change.state != .deleted || change.hasMetadata
  { document with
    key := change.key
    scopeId := scopeId
    mimeType := if identified then change.mimeType else document.mimeType
    revision := if identified then change.revision else document.revision
    state := change.state }

namespace SourceState

variable (s : SourceState)

/-! ### Reading and writing -/

def document (k : DocumentKey) : Option ExternalDocument := s.documents.find? (·.key == k)

def putDocument (d : ExternalDocument) : SourceState :=
  { s with documents := d :: s.documents.filter (·.key != d.key) }

def setLedger (k : DocumentKey) (f : Ledger → Ledger) : SourceState :=
  { s with ledger := fun k' => if k' = k then f (s.ledger k') else s.ledger k' }

def setDrafts (f : SourceDraft → SourceDraft) : SourceState :=
  { s with drafts := s.drafts.map f }

def setArticles (f : SourceArticle → SourceArticle) : SourceState :=
  { s with articles := s.articles.map f }

def pendingDraft (k : DocumentKey) : Option SourceDraft :=
  s.drafts.find? fun d => d.externalDocument == some k && d.status == .pending

def article (id : Nat) : Option SourceArticle := s.articles.find? (·.id == id)

/-- An active article or an open draft holds the document's content. -/
def alive (k : DocumentKey) : Bool :=
  (s.articles.any fun a => a.origin == k && a.served) ||
    s.drafts.any fun d => d.origin == k && d.isOpen

/-! ### An item -/

def isFileChange (change : NormalizedChange) : Bool :=
  isFile ((change.mimeType.filter (!·.isEmpty)).or ((s.document change.key).bind (·.mimeType)))

/-- A file that is there and can be indexed. -/
def supports (change : NormalizedChange) : Bool :=
  change.state == .active && s.isFileChange change &&
    (unsupportedReason change.name change.mimeType).isNone

def pendingDraftNeedsCandidates (k : DocumentKey) : Bool :=
  (s.pendingDraft k).any fun d => !d.candidates

def tries (scopeId : Nat) (change : NormalizedChange) : Bool :=
  let previous := s.document change.key
  let document := upsertDocument scopeId previous change
  s.supports change && !isQuarantined document change.revision &&
    needsContentIngest true previous.isSome (previous.bind (·.revision)) change.revision
      document.contentHash.isSome (s.pendingDraftNeedsCandidates change.key)

def enter (change : NormalizedChange) : SourceState :=
  let supported := s.supports change
  s.setLedger change.key fun l =>
    match change.state with
    | .deleted => { l with report := some .deleted }
    | .active =>
      { l with
        report := some (.present change.revision supported)
        latest := if supported then some change.revision else l.latest }

def attemptsAfter (document : ExternalDocument) (revision : Option String) : Nat :=
  match document.ingestFailure with
  | some failure => if failure.revision = revisionText revision then failure.attempts + 1 else 1
  | none => 1

/-- `_record_item_failure`: on the row the rollback left, if there is one. -/
def recordItemFailure (change : NormalizedChange) : SourceState :=
  let counted := s.setLedger change.key fun l =>
    { l with failures := fun r =>
        if r = revisionText change.revision then l.failures r + 1 else l.failures r }
  match s.document change.key with
  | none => counted
  | some document =>
    counted.putDocument
      { document with
        ingestFailure := some
          ⟨revisionText change.revision, attemptsAfter document change.revision⟩ }

def replaceSplitCandidates (draftId : Nat) (candidates : Bool) : SourceState :=
  s.setDrafts fun d => if d.id = draftId then { d with candidates := candidates } else d

def persistConnectorDraft (k : DocumentKey) (target : Option Nat) (candidates : Bool) :
    SourceState :=
  { s.setLedger k fun l => { l with takenDown := false } with
    drafts := s.drafts ++
      [{ id := s.nextId
         externalDocument := some k
         status := .pending
         candidates := candidates
         updateTargetArticleId := target
         origin := k }]
    nextId := s.nextId + 1 }

/-- The article a new version of the document would update: the linked one, while it is active. -/
def activeArticle (document : ExternalDocument) : Option Nat :=
  document.articleId.filter fun id => (s.article id).any (·.lifecycleActive)

/-- The draft of a downloaded version, new or in the place of the pending one. -/
def draftContent (document : ExternalDocument) (candidates : Bool) : SourceState :=
  match s.pendingDraft document.key with
  | none => s.persistConnectorDraft document.key (s.activeArticle document) candidates
  | some draft => s.replaceSplitCandidates draft.id candidates

/-- `_ingest_content`, on the committed row. -/
def ingestContent (document : ExternalDocument) (change : NormalizedChange) (contentHash : String)
    (candidates : Bool) : SourceState :=
  if document.contentHash == some contentHash && document.revision == change.revision then
    match s.pendingDraft document.key with
    | some draft => if draft.candidates then s else s.replaceSplitCandidates draft.id candidates
    | none => s
  else
    let document := document.holding change contentHash
    (s.putDocument document).draftContent document candidates

def clearIngestFailure (k : DocumentKey) : SourceState :=
  match s.document k with
  | some document => s.putDocument { document with ingestFailure := none }
  | none => s

def handleDeletedDocument (document : ExternalDocument) : SourceState :=
  let s := s.putDocument { document with state := .deleted }
  let s := s.setDrafts fun d =>
    if d.externalDocument = some document.key ∧ d.isOpen = true then { d with status := .rejected }
    else d
  let s := s.setArticles fun a =>
    if document.articleId = some a.id then { a with lifecycleActive := false } else a
  s.setLedger document.key fun l => { l with report := some .deleted }

end SourceState

/-- How the processing of an item ends: an error before the row is committed, after it, or of the
whole scope, or with what the download held. -/
inductive Outcome where
  | early (fatal : Bool)
  | fails
  | fatal
  | done (contentHash : String) (candidates : Bool)
  deriving DecidableEq

def Outcome.completes : Outcome → Bool
  | .done .. => true
  | _ => false

namespace SourceState

variable (s : SourceState)

def finishItem (tried : Bool) (document : ExternalDocument) (change : NormalizedChange)
    (contentHash : String) (candidates : Bool) : SourceState :=
  match change.state with
  | .deleted => s.handleDeletedDocument document
  | .active =>
    if tried then
      ((s.ingestContent document change contentHash candidates).clearIngestFailure
        document.key).setLedger document.key fun l => { l with ingested := some change.revision }
    else s

def meet (w : Walk) (change : NormalizedChange) : SourceState :=
  { s with walk := some { w with seen := change.externalId :: w.seen } }.enter change

def processItem (w : Walk) (change : NormalizedChange) (outcome : Outcome) : SourceState :=
  let s₁ := s.meet w change
  let previous := s.document change.key
  -- a tombstone of something never indexed
  if change.state = .deleted ∧ previous = none then s₁
  else
    let document := upsertDocument w.scopeId previous change
    match outcome with
    | .early fatal => if fatal then { s₁ with walk := none } else s₁.recordItemFailure change
    | .fails => (s₁.putDocument document).recordItemFailure change
    | .fatal => { s₁.putDocument document with walk := none }
    | .done contentHash candidates =>
      (s₁.putDocument document).finishItem (s.tries w.scopeId change) document change contentHash
        candidates

/-- The documents a full walk has not met. -/
def staleDocuments (w : Walk) : List ExternalDocument :=
  if w.full && !w.seen.isEmpty then
    s.documents.filter fun d =>
      d.scopeId == w.scopeId && d.state != .deleted && !w.seen.contains d.key.externalId
  else []

/-- The end of a walk, with its sweep. -/
def endWalk (w : Walk) : SourceState :=
  { (s.staleDocuments w).foldl handleDeletedDocument s with walk := none }

/-! ### People -/

/-- A decision that leaves nothing of the document takes it down. -/
def ruleOut (k : DocumentKey) : SourceState :=
  if s.alive k then s else s.setLedger k fun l => { l with takenDown := true }

/-- A decision that leaves something of it does not. -/
def bringBack (k : DocumentKey) : SourceState :=
  if s.alive k then s.setLedger k fun l => { l with takenDown := false } else s

def linkArticle (draft : SourceDraft) (articleId : Nat) : SourceState :=
  match draft.externalDocument.bind s.document with
  | some document => s.putDocument { document with articleId := some articleId }
  | none => s

def setStatus (draftId : Nat) (status : DraftStatus) : SourceState :=
  s.setDrafts fun d => if d.id = draftId then { d with status := status } else d

def createArticle (origin : DocumentKey) : SourceState :=
  { s with
    articles := s.articles ++
      [{ id := s.nextId, lifecycleActive := true, status := .published, origin := origin }]
    nextId := s.nextId + 1 }

def updateArticle (target : Nat) (origin : DocumentKey) : SourceState :=
  s.setArticles fun a =>
    if a.id = target then
      { a with lifecycleActive := true, status := .published, origin := origin }
    else a

def pendingById (draftId : Nat) : Option SourceDraft :=
  s.drafts.find? fun d => d.id == draftId && d.status == .pending

/-- `approve_draft`, as a new article or as the next version of an active one. -/
def approveDraft (draftId : Nat) (updateArticleId : Option Nat) : Option SourceState :=
  (s.pendingById draftId).bind fun draft =>
    -- the connector's record must still be there
    if draft.externalDocument.any fun k => (s.document k).isNone then none
    else match updateArticleId with
      | none => some (((s.createArticle draft.origin).linkArticle draft s.nextId).setStatus draftId
          .approved)
      | some target =>
        if (s.article target).any fun a => a.lifecycleActive && a.status != .deleted then
          some (((s.updateArticle target draft.origin).linkArticle draft target).setStatus draftId
            .approved)
        else none

def rejectDraft (draftId : Nat) : Option SourceState :=
  (s.pendingById draftId).map fun draft =>
    (s.setStatus draftId .rejected).ruleOut draft.origin

def childDraft (origin : DocumentKey) (id : Nat) : SourceDraft where
  id := id
  externalDocument := none
  status := .pending
  candidates := false
  updateTargetArticleId := none
  origin := origin

/-- `commit_candidates`: the parent is rejected, one child more than the number is submitted. -/
def commitCandidates (draftId children : Nat) : Option SourceState :=
  ((s.pendingById draftId).filter (·.candidates)).map fun parent =>
    { s.setStatus draftId .rejected with
      drafts := (s.setStatus draftId .rejected).drafts ++
        (List.range (children + 1)).map fun i => childDraft parent.origin (s.nextId + i)
      nextId := s.nextId + children + 1 }

def liveArticle (articleId : Nat) : Option SourceArticle :=
  (s.article articleId).filter (·.status != .deleted)

/-- `update_article` with a status, or `soft_delete_article`. -/
def setArticleStatus (articleId : Nat) (status : ArticleStatus) : Option SourceState :=
  (s.liveArticle articleId).map fun a =>
    let t := s.setArticles fun b => if b.id = articleId then { b with status := status } else b
    if status = .published then t.bringBack a.origin else t.ruleOut a.origin

/-- `restore_version`: the restored article is active again. -/
def restoreVersion (articleId : Nat) : Option SourceState :=
  (s.liveArticle articleId).map fun a =>
    (s.setArticles fun b =>
      if b.id = articleId then { b with lifecycleActive := true } else b).bringBack a.origin

end SourceState

/-! ### What is read back -/

namespace SourceState

variable (s : SourceState)

theorem document_putDocument (d : ExternalDocument) (k : DocumentKey) :
    (s.putDocument d).document k = if d.key = k then some d else s.document k := by
  unfold putDocument document
  by_cases h : d.key = k
  · simp [h]
  · rw [if_neg h, List.find?_cons_of_neg (by simpa using h), List.find?_filter]
    congr 1
    funext b
    by_cases hb : b.key = k
    · simp [hb, Ne.symm h]
    · simp [hb]

theorem alive_iff (k : DocumentKey) : s.alive k = true ↔
    (∃ a ∈ s.articles, a.origin = k ∧ a.served = true) ∨
      ∃ d ∈ s.drafts, d.origin = k ∧ d.isOpen = true := by
  simp [alive]

theorem key_of_document {k : DocumentKey} {d : ExternalDocument} (h : s.document k = some d) :
    d.key = k := by
  simpa using List.find?_some h

@[simp] theorem putDocument_ledger (d : ExternalDocument) : (s.putDocument d).ledger = s.ledger :=
  rfl

@[simp] theorem setLedger_documents (k : DocumentKey) (f : Ledger → Ledger) :
    (s.setLedger k f).documents = s.documents := rfl

@[simp] theorem setLedger_document (k k' : DocumentKey) (f : Ledger → Ledger) :
    (s.setLedger k f).document k' = s.document k' := rfl

@[simp] theorem setLedger_articles (k : DocumentKey) (f : Ledger → Ledger) :
    (s.setLedger k f).articles = s.articles := rfl

theorem setLedger_ledger (k k' : DocumentKey) (f : Ledger → Ledger) :
    (s.setLedger k f).ledger k' = if k' = k then f (s.ledger k') else s.ledger k' := rfl

@[simp] theorem setDrafts_ledger (f : SourceDraft → SourceDraft) :
    (s.setDrafts f).ledger = s.ledger := rfl

end SourceState

@[simp] theorem upsertDocument_key (scopeId : Nat) (previous : Option ExternalDocument)
    (change : NormalizedChange) : (upsertDocument scopeId previous change).key = change.key := rfl

theorem upsertDocument_revision (scopeId : Nat) (previous : Option ExternalDocument)
    {change : NormalizedChange} (h : change.state = .active) :
    (upsertDocument scopeId previous change).revision = change.revision := by
  simp [upsertDocument, h]

namespace SourceState

variable {s : SourceState} {change : NormalizedChange}

theorem draftContent_documents (document : ExternalDocument) (candidates : Bool) :
    (s.draftContent document candidates).documents = s.documents := by
  unfold draftContent
  split <;> rfl

theorem draftContent_ledger (document : ExternalDocument) (candidates : Bool) (k : DocumentKey) :
    (s.draftContent document candidates).ledger k = s.ledger k ∨
      (s.draftContent document candidates).ledger k = { s.ledger k with takenDown := false } := by
  unfold draftContent
  split
  · by_cases hk : k = document.key
    · exact Or.inr (if_pos hk)
    · exact Or.inl (if_neg hk)
  · exact Or.inl rfl

@[simp] theorem clearIngestFailure_ledger (k : DocumentKey) :
    (s.clearIngestFailure k).ledger = s.ledger := by
  unfold clearIngestFailure
  split <;> rfl

theorem state_of_supports (h : s.supports change = true) : change.state = .active := by
  simp only [supports, Bool.and_eq_true, beq_iff_eq] at h
  exact h.1.1

theorem supports_of_tries {scopeId : Nat} (h : s.tries scopeId change = true) :
    s.supports change = true := by
  simp only [tries, Bool.and_eq_true] at h
  exact h.1.1

/-- A supported item is not tried where its revision is quarantined, or the row stands at it with
content. -/
theorem not_tried (hs : s.supports change = true) {scopeId : Nat}
    (ht : s.tries scopeId change = false) : ∃ d, s.document change.key = some d ∧
      (isQuarantined d change.revision = true ∨
        d.revision = change.revision ∧ d.contentHash.isSome = true) := by
  cases hd : s.document change.key with
  | none => simp [tries, hs, hd, needsContentIngest, upsertDocument, isQuarantined,
      ExternalDocument.fresh] at ht
  | some d =>
    refine ⟨d, rfl, ?_⟩
    by_cases hq : isQuarantined d change.revision = true
    · exact Or.inl hq
    · have hq' : isQuarantined (upsertDocument scopeId (some d) change) change.revision = false :=
        eq_false_of_ne_true hq
      have hhash : (upsertDocument scopeId (some d) change).contentHash = d.contentHash := rfl
      simp [tries, hs, hd, hq', hhash, needsContentIngest] at ht
      exact Or.inr ⟨ht.1.1, by simp [ht.1.2]⟩

end SourceState

/-! ### Steps -/

inductive SourceAction where
  | beginWalk (scopeId : Nat) (full : Bool)
  | item (change : NormalizedChange) (outcome : Outcome)
  | abortWalk
  | endWalk
  | approve (draftId : Nat) (updateArticleId : Option Nat)
  | reject (draftId : Nat)
  | commitCandidates (draftId children : Nat)
  | setArticleStatus (articleId : Nat) (status : ArticleStatus)
  | restoreVersion (articleId : Nat)
  deriving DecidableEq

/-- One step; `none` where it cannot be taken. -/
def nextSource (s : SourceState) : SourceAction → Option SourceState
  | .beginWalk scopeId full =>
    if s.walk.isNone then some { s with walk := some ⟨scopeId, full, []⟩ } else none
  | .item change outcome => s.walk.map fun w => s.processItem w change outcome
  | .abortWalk => s.walk.map fun _ => { s with walk := none }
  | .endWalk => s.walk.map s.endWalk
  | .approve draftId target => s.approveDraft draftId target
  | .reject draftId => s.rejectDraft draftId
  | .commitCandidates draftId children => s.commitCandidates draftId children
  | .setArticleStatus articleId status => s.setArticleStatus articleId status
  | .restoreVersion articleId => s.restoreVersion articleId

def takeSource (s : SourceState) (a : SourceAction) : Option (SourceAction × SourceState) :=
  (nextSource s a).map fun t => (a, t)

def SourceStep : SourceState → SourceAction → SourceState → Prop := By takeSource

def emptySource : SourceState where
  documents := []
  drafts := []
  articles := []
  nextId := 0
  walk := none
  ledger _ := ⟨none, none, fun _ => 0, none, false⟩

def SourceInitial (s : SourceState) : Prop := s = emptySource

theorem initial_emptySource : SourceInitial emptySource := rfl

theorem sourceStep_iff {s t : SourceState} {a : SourceAction} :
    SourceStep s a t ↔ nextSource s a = some t := by
  constructor
  · rintro ⟨b, h⟩
    obtain ⟨u, hu, heq⟩ := Option.map_eq_some_iff.mp h
    cases heq
    exact hu
  · intro h
    exact ⟨a, Option.map_eq_some_iff.mpr ⟨t, h, rfl⟩⟩

def handbookAt (revision : String) : NormalizedChange where
  externalId := "file-1"
  corpusId := some "drive-1"
  name := "handbook.pdf".toList
  state := .active
  contentChanged := true
  permissionsChanged := false
  moved := false
  revision := some revision
  mimeType := some "application/pdf".toList
  parentExternalId := none
  webUrl := none
  hasMetadata := true

end QnscKb.Sync
