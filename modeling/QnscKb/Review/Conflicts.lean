import QnscKb.Ask.Conflicts
import QnscKb.Review.Workflow

/-!
# Review — Conflicts

The table of contradictions (`ConflictRecord`) and who writes it: an answer whose passages
contradict each other, the check of a draft at its approval (`detect_contradictions_for_draft`), the
model's comparison (`_record_llm_conflicts`), and the reviewer (`resolve_conflict`,
`reopen_conflict`).

The session does not flush by itself, so a detection is one step, and every turn of its loops reads
the table from before it.  A record is named by its position.
-/

namespace QnscKb.Review
open QnscKb.Access QnscKb.Ask QnscKb.Runs

/-! ### Records -/

/-- `unresolved` is the stored text `open`. -/
inductive ConflictStatus
  | unresolved | resolved
  deriving DecidableEq, Repr

inductive DetectionMethod
  | pattern | llm
  deriving DecidableEq, Repr

structure Evidence where
  articleId : Id
  title : Option Text
  value : Text
  deriving DecidableEq

structure ConflictRecord where
  companyDomain : String
  fact : Text
  contradictionType : Option Text
  articleIds : List Id
  evidence : List Evidence
  status : ConflictStatus
  resolvedBy : Option Id
  resolutionNote : Option String
  keptArticleId : Option Id
  detectionMethod : DetectionMethod
  deriving DecidableEq

abbrev Table := List ConflictRecord

/-- `sorted({…})`. -/
def sortedIds (ids : List Id) : List Id :=
  ids.dedup.insertionSort fun x y => x ≤ y

theorem mem_sortedIds {ids : List Id} {id : Id} : id ∈ sortedIds ids ↔ id ∈ ids := by
  rw [sortedIds, List.mem_insertionSort, List.mem_dedup]

section Topics

variable (U : Unicode) (casefold : Text → Text)

def topicWords (topic : Text) : List Text :=
  (((wordSpans U (casefold topic)).map (·.2)).filter fun word => 2 < word.length).dedup

/-- `same_topic`: of the words of both, `0.34` or more are common; the quotient compares with the
literal as the fractions do. -/
def sameTopic (left right : Text) : Bool :=
  let a := topicWords U casefold left
  let b := topicWords U casefold right
  if a.isEmpty || b.isEmpty then
    casefold (Text.strip left) == casefold (Text.strip right)
  else
    let common := (a.filter fun word => b.contains word).length
    17 * (a.length + b.length - common) ≤ 50 * common

theorem sameTopic_self (topic : Text) : sameTopic U casefold topic topic = true := by
  simp only [sameTopic]
  split
  · exact beq_self_eq_true _
  · have hcommon : (topicWords U casefold topic).filter
        (fun word => (topicWords U casefold topic).contains word) = topicWords U casefold topic :=
      List.filter_eq_self.mpr fun word hword => List.contains_iff_mem.mpr hword
    rw [hcommon, decide_eq_true_eq]
    omega

end Topics

/-! ### Labelled facts -/

/-- `FACT_TAXONOMY`, `classify_fact_type`. -/
def classifyFactType : FactLabel → Text
  | .effectiveDate | .deadline | .approvalDeadline | .retentionPeriod => "date".toList
  | .status => "status".toList
  | .limit => "numerical".toList
  | .owner => "ownership".toList

def conflictArticles (c : Conflict) : List Id :=
  sortedIds (c.entries.map fun entry => entry.source.articleId)

/-- An open record of the label exists. -/
def hasOpen (table : Table) (company : String) (fact : Text) : Bool :=
  table.any fun r => r.companyDomain == company && r.fact == fact && r.status == .unresolved

/-- What the two loops over labelled facts add. -/
def recordExplicit (table : Table) (company : String) (conflicts : List Conflict)
    (record : Conflict → ConflictRecord) : Table :=
  (conflicts.filter fun c =>
    2 ≤ (conflictArticles c).length && !hasOpen table company c.fact.text).map record

/-- The columns every labelled fact is written with. -/
def explicitRecord (company : String) (c : Conflict) (contradictionType : Option Text)
    (title : FactEntry → Option Text) : ConflictRecord where
  companyDomain := company
  fact := c.fact.text
  contradictionType := contradictionType
  articleIds := conflictArticles c
  evidence := c.entries.map fun entry => ⟨entry.source.articleId, title entry, entry.value⟩
  status := .unresolved
  resolvedBy := none
  resolutionNote := none
  keptArticleId := none
  detectionMethod := .pattern

/-- What the loop of `ask` adds.  An entry has no `title` of its own. -/
def recordAnswerConflicts (table : Table) (company : String) (conflicts : List Conflict) : Table :=
  recordExplicit table company conflicts fun c => explicitRecord company c none fun _ => none

/-- What the loop of `detect_contradictions_for_draft` adds. -/
def recordDraftConflicts (table : Table) (company : String) (conflicts : List Conflict) : Table :=
  recordExplicit table company conflicts fun c =>
    explicitRecord company c (some (classifyFactType c.fact)) fun entry => some entry.source.title

/-! ### The model's comparison -/

/-- `LlmConflict`, with the article its `other_index` names. -/
structure LlmConflict where
  other : Id
  otherTitle : Text
  topic : Text
  newStatement : Text
  otherStatement : Text
  kind : Text

/-- What the model found for a stored article.  A bare draft is not compared. -/
structure Comparison where
  article : Id
  title : Text
  found : List LlmConflict

/-- The label a topic is recorded under. -/
def LlmConflict.fact (item : LlmConflict) : Text := item.topic.take 255

section Model

variable (U : Unicode) (casefold : Text → Text)

/-- A record of the same articles and topic is known, open or resolved. -/
def known (table : Table) (company : String) (ids : List Id) (topic : Text) : Bool :=
  table.any fun r => r.companyDomain == company &&
    (r.articleIds.insertionSort fun x y => x ≤ y) == ids && sameTopic U casefold r.fact topic

def llmRecord (company : String) (compared : Comparison) (item : LlmConflict) :
    ConflictRecord where
  companyDomain := company
  fact := item.fact
  contradictionType := some item.kind
  articleIds := sortedIds [compared.article, item.other]
  evidence := [⟨compared.article, some compared.title, item.newStatement⟩,
    ⟨item.other, some item.otherTitle, item.otherStatement⟩]
  status := .unresolved
  resolvedBy := none
  resolutionNote := none
  keptArticleId := none
  detectionMethod := .llm

/-- A turn of the loop of `_record_llm_conflicts` adds a record. -/
def newTopic (table : Table) (company : String) (compared : Comparison) (item : LlmConflict) :
    Bool :=
  let ids := sortedIds [compared.article, item.other]
  2 ≤ ids.length && !known U casefold table company ids item.fact

/-- What the loop of `_record_llm_conflicts` adds. -/
def recordLlmConflicts (table : Table) (company : String) (compared : Comparison) : Table :=
  (compared.found.filter (newTopic U casefold table company compared)).map
    (llmRecord company compared)

end Model

/-- `resolve_conflict`, of a record found open. -/
def resolveConflict (u : User) (r : ConflictRecord) (keep : Option Id) (note : String) :
    Except Refusal ConflictRecord :=
  if r.companyDomain != u.companyDomain || r.status != .unresolved then
    .error ⟨404, "Conflict not found"⟩
  else
    let resolved := { r with
      status := .resolved
      resolvedBy := some u.id
      resolutionNote :=
        some (if strip note = "" then "Decided which article is right" else strip note)
      keptArticleId := keep }
    match keep with
    | some kept =>
      if !r.articleIds.contains kept then
        .error ⟨422, "keep_article_id must be one of the conflicting articles"⟩
      else if !maySelfApprove u then
        .error ⟨403, "Only an Admin or CEO can decide which article is right"⟩
      else .ok resolved
    | none => if strip note = "" then .error ⟨422, "A note is required"⟩ else .ok resolved

/-- `reopen_conflict`, of a record found resolved. -/
def reopenConflict (u : User) (r : ConflictRecord) : Except Refusal ConflictRecord :=
  if r.companyDomain != u.companyDomain || r.status != .resolved then
    .error ⟨404, "Conflict not found"⟩
  else if r.keptArticleId.isSome && !maySelfApprove u then
    .error ⟨403, "Only an Admin or CEO can reopen a conflict where an article was chosen"⟩
  else .ok { r with
    status := .unresolved
    resolvedBy := none
    resolutionNote := none
    keptArticleId := none }

/-! ### Steps -/

/-- A detection, or a decision of a reviewer. -/
inductive ConflictEvent
  | answer (company : String) (results : List ContextRow)
  | draft (company : String) (results : List ContextRow) (compared : Option Comparison)
  | resolve (i : Nat) (u : User) (keep : Option Id) (note : String)
  | reopen (i : Nat) (u : User)

section Steps

variable (U : Unicode) (casefold : Text → Text)

def decided (table : Table) (i : Nat) (f : ConflictRecord → Except Refusal ConflictRecord) :
    Option Table :=
  match table[i]? with
  | none => none
  | some r =>
    match f r with
    | .error _ => none
    | .ok r => some (table.set i r)

def afterEvent (table : Table) : ConflictEvent → Option Table
  | .answer company results =>
    some (table ++ recordAnswerConflicts table company (detectExplicitConflicts U results))
  | .draft company results compared =>
    some (table ++ (compared.elim [] (recordLlmConflicts U casefold table company) ++
      recordDraftConflicts table company (detectExplicitConflicts U results)))
  | .resolve i u keep note => decided table i fun r => resolveConflict u r keep note
  | .reopen i u => decided table i (reopenConflict u)

def nextTable (table : Table) (e : ConflictEvent) : Option (ConflictEvent × Table) :=
  (afterEvent U casefold table e).map fun table => (e, table)

def ConflictStep : Table → ConflictEvent → Table → Prop := By (nextTable U casefold)

end Steps

theorem conflictStep_iff {U : Unicode} {casefold : Text → Text} {s t : Table}
    {e : ConflictEvent} : ConflictStep U casefold s e t ↔ afterEvent U casefold s e = some t := by
  constructor
  · rintro ⟨e', h⟩
    obtain ⟨t', ht, heq⟩ := Option.map_eq_some_iff.mp h
    cases heq
    exact ht
  · intro h
    exact ⟨e, by rw [nextTable, h]; rfl⟩

end QnscKb.Review
