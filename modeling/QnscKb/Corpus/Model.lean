import QnscKb.Ask.Context
import QnscKb.Ask.Fence

/-!
# Corpus — Model

The answer of a question about many documents from their digests (`src/domain/agent/corpus.py`): the
documents in scope, the batches, the map step with its budget and failures, the sources and the
coverage that is stated.  `gather` also says which digests a prompt held.
-/

namespace QnscKb.Corpus

open Ask (fenceUntrusted decimal)

/-! ### Documents and digests -/

/-- What of an `ArticleDigest` an answer reads. -/
structure Digest where
  /-- `status == "ready"`. -/
  ready : Bool
  summary : Text
  topics : List Text
  keyNumbers : List (Text × Text)
  contentHash : Text

/-- The first ordinary chunk of a document. -/
structure Chunk where
  chunkId : Text
  parentChunkId : Text
  chunkText : Text

/-- A document in scope, which the asker may read; it has one digest row at most. -/
structure Document where
  articleId : Text
  title : Text
  department : Text
  docType : Text
  digest : Option Digest
  chunk : Option Chunk

structure Documents where
  all : List Document
  distinct : (all.map Document.articleId).Nodup

structure Candidate where
  articleId : Text
  title : Text
  department : Text
  docType : Text
  summary : Text
  topics : List Text
  keyNumbers : List (Text × Text)
  contentHash : Text

def Document.candidate (document : Document) : Option Candidate :=
  document.digest.bind fun digest =>
    if digest.ready && !digest.summary.isEmpty then
      some {
        articleId := document.articleId
        title := document.title
        department := document.department
        docType := document.docType
        summary := digest.summary
        topics := digest.topics
        keyNumbers := digest.keyNumbers
        contentHash := digest.contentHash }
    else none

/-- What a digest is told by: its document and the hash of the text it was made from. -/
def Candidate.identity (candidate : Candidate) : Text × Text :=
  (candidate.articleId, candidate.contentHash)

def Candidate.numbers (candidate : Candidate) : Text :=
  Text.join "; ".toList (candidate.keyNumbers.map fun n => n.1 ++ ": ".toList ++ n.2)

def Candidate.block (candidate : Candidate) (handle : Text) : Text :=
  "<digest id=\"".toList ++ handle ++ "\">".toList ++
    "<title>".toList ++ fenceUntrusted candidate.title ++ "</title>".toList ++
    "<department>".toList ++ fenceUntrusted candidate.department ++ "</department>".toList ++
    (if candidate.topics.isEmpty then []
      else "<topics>".toList ++ fenceUntrusted (Text.join "; ".toList candidate.topics) ++
        "</topics>".toList) ++
    "<summary>".toList ++ fenceUntrusted candidate.summary ++ "</summary>".toList ++
    (if candidate.numbers.isEmpty then []
      else "<figures>".toList ++ fenceUntrusted candidate.numbers ++ "</figures>".toList) ++
    "</digest>".toList

/-- `Candidate.tokens`, with `CHARS_PER_TOKEN`. -/
def Candidate.tokens (candidate : Candidate) : Nat :=
  max 1 ((candidate.block "D000".toList).length / 3)

/-- The body of the loop of `pack_batches`. -/
def packStep (budget : Nat) (state : List (List Candidate) × List Candidate × Nat)
    (candidate : Candidate) : List (List Candidate) × List Candidate × Nat :=
  let (batches, current, used) := state
  if !current.isEmpty && budget < used + candidate.tokens then
    (batches ++ [current], [candidate], candidate.tokens)
  else (batches, current ++ [candidate], used + candidate.tokens)

def packBatches (candidates : List Candidate) (budget : Nat) : List (List Candidate) :=
  let (batches, current, _) := candidates.foldl (packStep budget) ([], [], 0)
  if current.isEmpty then batches else batches ++ [current]

/-! ### The map step -/

/-- One entry of the list in a map reply. -/
inductive MapEntry where
  | plain (handle : Text)
  | noted (id note : Text)
  | other

/-- What a map call comes to; a reply may hold no list. -/
inductive MapReply where
  | failed
  | reply (relevant : Option (List MapEntry))

def MapEntry.parts : MapEntry → Option (Text × Text)
  | .plain handle => some (Text.strip handle, [])
  | .noted id note => some (Text.strip id, note)
  | .other => none

/-- The loop of `parse_map_reply`. -/
def pickStep (valid : List Text) (picked : List (Text × Text)) (entry : MapEntry) :
    List (Text × Text) :=
  match entry.parts with
  | none => picked
  | some (handle, note) =>
    if valid.contains handle && !(picked.map Prod.fst).contains handle then
      picked ++ [(handle, (Text.join [' '] (Text.words note)).take 300)]
    else picked

def parseMapReply (relevant : Option (List MapEntry)) (valid : List Text) :
    Option (List (Text × Text)) :=
  relevant.map fun entries => entries.foldl (pickStep valid) []

def handleText (index : Nat) : Text := 'D' :: decimal (index + 1)

/-- `handles`: the batch under its handles. -/
def handles (batch : List Candidate) : List (Text × Candidate) :=
  batch.zipIdx.map fun (candidate, index) => (handleText index, candidate)

/-- `MapOutcome`; `read` are the candidates a call was made for. -/
structure MapOutcome where
  selected : List Candidate
  notes : List (Text × Text)
  calls : Nat
  failedBatches : Nat
  skippedDocs : Nat
  read : List Candidate

def MapOutcome.start : MapOutcome := ⟨[], [], 0, 0, 0, []⟩

/-- One batch: its call, if the budget has one left, and what is kept of it. -/
def mapBatch (maxCalls : Nat) (replies : Nat → MapReply) (outcome : MapOutcome)
    (batch : List Candidate) : MapOutcome :=
  if maxCalls ≤ outcome.calls then
    { outcome with skippedDocs := outcome.skippedDocs + batch.length }
  else
    let called := { outcome with calls := outcome.calls + 1, read := outcome.read ++ batch }
    let failed := { called with
      selected := outcome.selected ++ batch, failedBatches := outcome.failedBatches + 1 }
    match replies outcome.calls with
    | .failed => failed
    | .reply relevant =>
      match parseMapReply relevant ((handles batch).map Prod.fst) with
      -- a reply that cannot be read keeps all the documents
      | none => failed
      | some picked =>
        let items := picked.filterMap fun (handle, note) =>
          ((handles batch).lookup handle).map fun candidate => (candidate, note)
        { called with
          selected := outcome.selected ++ items.map Prod.fst
          notes := outcome.notes ++ items.filterMap fun (candidate, note) =>
            if note.isEmpty then none else some (candidate.articleId, note) }

/-- `map_candidates`: the calls are taken from the budget in the order of the batches. -/
def mapCandidates (batches : List (List Candidate)) (maxCalls : Nat) (replies : Nat → MapReply) :
    MapOutcome :=
  batches.foldl (mapBatch maxCalls replies) MapOutcome.start

/-! ### The sources -/

inductive Language where
  | vi
  | en
  deriving DecidableEq

def Language.label (language : Language) (vi en : String) : Text :=
  match language with
  | .vi => vi.toList
  | .en => en.toList

def digestContextText (candidate : Candidate) (note : Text) (language : Language) : Text :=
  Text.join ['\n'] ([candidate.summary] ++
    (if candidate.topics.isEmpty then []
      else [language.label "Chủ đề: " "Topics: " ++ Text.join "; ".toList candidate.topics]) ++
    (if candidate.keyNumbers.isEmpty then []
      else [language.label "Số liệu: " "Key figures: " ++ candidate.numbers]) ++
    if note.isEmpty then [] else [language.label "Liên quan: " "Relevance: " ++ note])

structure Source where
  sourceId : Text
  chunkId : Text
  parentChunkId : Text
  chunkText : Text
  articleId : Text
  title : Text
  docType : Option Text
  contextText : Text
  /-- The digest the source shows. -/
  digest : Text × Text

def noteOf (notes : List (Text × Text)) (articleId : Text) : Text :=
  ((notes.reverse.find? fun note => note.1 == articleId).map Prod.snd).getD []

def sourceOf (notes : List (Text × Text)) (language : Language) (index : Nat)
    (candidate : Candidate) (chunk : Chunk) : Source where
  sourceId := 'C' :: decimal (index + 1)
  chunkId := chunk.chunkId
  parentChunkId := chunk.parentChunkId
  chunkText := chunk.chunkText
  articleId := candidate.articleId
  title := candidate.title
  docType := if candidate.docType.isEmpty then none else some candidate.docType
  contextText := digestContextText candidate (noteOf notes candidate.articleId) language
  digest := candidate.identity

/-- `build_context_results`: a document without a chunk to cite is dropped. -/
def buildContextResults (chosen : List Candidate) (chunks : Text → Option Chunk)
    (notes : List (Text × Text)) (language : Language) : List Source :=
  chosen.foldl (fun results candidate =>
    match chunks candidate.articleId with
    | none => results
    | some chunk => results ++ [sourceOf notes language results.length candidate chunk]) []

/-! ### The whole -/

/-- `Coverage`, with its reason. -/
structure Coverage extends Ask.Coverage where
  reason : Text

/-- The settings, `CORPUS_…` and the version of the digests. -/
structure Settings where
  version : Text
  digestVersion : Text
  maxDocs : Nat
  batchTokens : Nat
  maxCalls : Nat
  finalDocs : Nat

/-- What the cached outcome of a map step is kept under: `scope_fingerprint` and the question. -/
structure CacheKey where
  question : Text
  version : Text
  digestVersion : Text
  docTypes : List Text
  departments : List Text
  topic : Text
  docs : List (Text × Text)
  deriving DecidableEq

/-- A cached outcome; `read` are the digests that were in the prompts it came from. -/
structure CacheEntry where
  key : CacheKey
  selection : List (Text × Text)
  read : List (Text × Text)

/-- One question about many documents.  The order of the digests is the database's; a row of the
cache may have gone. -/
structure Request where
  settings : Settings
  documents : Documents
  before : Candidate → Candidate → Bool
  /-- The question, lower-cased, its words joined by one space. -/
  question : Text
  docTypes : List Text
  departments : List Text
  topic : Text
  language : Language
  replies : Nat → MapReply
  cacheKept : Bool

/-- The ready digests in scope: those `with_digest` counts. -/
def Request.digests (r : Request) : List Candidate := r.documents.all.filterMap Document.candidate

/-- `load_scope`'s candidates. -/
def Request.candidates (r : Request) : List Candidate :=
  (r.digests.insertionSort fun a b => r.before a b).take (max 1 r.settings.maxDocs)

/-- The order of `str`, by code points. -/
def textLe : Text → Text → Bool
  | [], _ => true
  | _ :: _, [] => false
  | a :: s, b :: t => a.toNat < b.toNat || a == b && textLe s t

def pairLe (a b : Text × Text) : Bool := if a.1 == b.1 then textLe a.2 b.2 else textLe a.1 b.1

/-- `cache_hash` of `scope_fingerprint`, the hashes taken for what they are made of. -/
def Request.key (r : Request) : CacheKey where
  question := r.question
  version := r.settings.version
  digestVersion := r.settings.digestVersion
  docTypes := r.docTypes.insertionSort fun a b => textLe a b
  departments := r.departments.insertionSort fun a b => textLe a b
  topic := r.topic
  docs := (r.candidates.map Candidate.identity).insertionSort fun a b => pairLe a b

/-- The first ordinary chunk of a document (`representative_chunks`). -/
def Request.chunks (r : Request) (articleId : Text) : Option Chunk :=
  (r.documents.all.find? fun document => document.articleId == articleId).bind Document.chunk

/-- The cached entry that is used: all of its documents are in scope. -/
def Request.hit (r : Request) (cache : List CacheEntry) : Option CacheEntry :=
  if r.cacheKept then
    (cache.find? fun entry => entry.key == r.key).filter fun entry =>
      !entry.selection.isEmpty && entry.selection.all fun item =>
        r.candidates.any fun candidate => candidate.articleId == item.1
  else none

/-- `CorpusContext`; `read` are the digests that were in a prompt, of the map step the selection
comes from or of the answer. -/
structure Context where
  results : List Source
  coverage : Coverage
  calls : Nat
  cacheHit : Bool
  read : List (Text × Text)

def Request.scopeCoverage (r : Request) : Coverage where
  total := r.documents.all.length
  withDigest := r.digests.length
  considered := r.candidates.length
  used := 0
  incomplete := decide (r.candidates.length < r.digests.length) ||
    decide (r.digests.length < r.documents.all.length)
  reason :=
    if r.candidates.length < r.digests.length then "ceiling".toList
    else if r.digests.length < r.documents.all.length then "missing_digests".toList else []

/-- Documents the budget had no call for. -/
def Coverage.skip (coverage : Coverage) (skippedDocs : Nat) : Coverage :=
  if skippedDocs = 0 then coverage
  else
    { coverage with
      incomplete := true
      reason := "budget".toList
      considered := coverage.considered - skippedDocs }

def Coverage.fail (coverage : Coverage) (failedBatches : Nat) : Coverage :=
  if failedBatches = 0 then coverage
  else
    { coverage with
      incomplete := true
      reason := if coverage.reason.isEmpty then "map_failed".toList else coverage.reason }

def Coverage.mapped (coverage : Coverage) (outcome : MapOutcome) : Coverage :=
  (coverage.skip outcome.skippedDocs).fail outcome.failedBatches

/-- The end: the sources of the answer, or none to make it from. -/
def Request.finish (r : Request) (selected : List Candidate) (notes : List (Text × Text))
    (coverage : Coverage) (calls : Nat) (cacheHit : Bool) (read : List (Text × Text)) :
    Option Context :=
  let chosen := selected.take (max 1 r.settings.finalDocs)
  let results := buildContextResults chosen r.chunks notes r.language
  if results.isEmpty then none
  else some {
    results
    coverage := { coverage with used := results.length }
    calls
    cacheHit
    read := read ++ results.map Source.digest }

/-- `gather_corpus_context`, with the cache it leaves; `none` answers the ordinary way. -/
def gather (cache : List CacheEntry) (r : Request) : Option Context × List CacheEntry :=
  if r.candidates.isEmpty then (none, cache)
  else
    match r.hit cache with
    | some entry =>
      let selected := entry.selection.filterMap fun item =>
        r.candidates.find? fun candidate => candidate.articleId == item.1
      let notes := entry.selection.filter fun item => !item.2.isEmpty
      (r.finish selected notes r.scopeCoverage 0 true entry.read, cache)
    | none =>
      let batches := packBatches r.candidates r.settings.batchTokens
      -- everything fits one prompt: there is nothing to choose between
      if batches.length ≤ 1 then (r.finish r.candidates [] r.scopeCoverage 0 false [], cache)
      else
        let outcome := mapCandidates batches r.settings.maxCalls r.replies
        let read := outcome.read.map Candidate.identity
        let cache :=
          if outcome.skippedDocs = 0 ∧ outcome.failedBatches = 0 then
            { key := r.key
              selection := outcome.selected.map fun candidate =>
                (candidate.articleId, noteOf outcome.notes candidate.articleId)
              read } :: cache
          else cache
        (r.finish outcome.selected outcome.notes (r.scopeCoverage.mapped outcome) outcome.calls
          false read, cache)

def cacheAfter (requests : List Request) : List CacheEntry :=
  requests.foldl (fun cache r => (gather cache r).2) []

end QnscKb.Corpus
