import QnscKb.Chunking.Lossless
import QnscKb.Chunking.Noise

/-!
# Indexing — Model

One indexing run of an article (`_index_article` of `src/domain/indexing.py`), from its body and
source to the stored chunks, and the chunk a document is cited by when only its digest is known
(`representative_chunks` of `src/domain/agent/corpus.py`).  A new row is named by what it was made
from; of the vectors only whether the embedder answered counts.
-/

namespace QnscKb.Indexing

open QnscKb.Ask (Unicode)
open QnscKb.Chunking (Parent createParentChildChunks)

/-! ### Sections -/

/-- An entry of `page_texts`. -/
structure PageItem where
  pageNumber : Option ℤ
  text : Text

/-- What the loop over `evidence_specs` reads of one of them. -/
structure Artifact where
  label : Text
  searchText : Text
  pageNumber : Option ℤ

/-- `source`, with the evidence that was found in it. -/
structure Source where
  pageTexts : List PageItem
  evidenceSpecs : List Artifact

structure Section where
  heading : Text
  body : Text
  pageNumber : Option ℤ

/-- `text.split("\n## ")`, with the section read so far. -/
def sectionsFrom : Text → Text → List Text
  | read, [] => [read]
  | read, '\n' :: '#' :: '#' :: ' ' :: t => read :: sectionsFrom [] t
  | read, c :: t => sectionsFrom (read ++ [c]) t

def bodySections (body : Text) : List Section :=
  (sectionsFrom [] body).map fun text => ⟨Text.strip (text.takeWhile (· != '\n')), text, none⟩

def pageOf (item : PageItem) (place : ℕ) : ℤ := item.pageNumber.getD (place + 1)

def pageSections (pages : List PageItem) : List Section :=
  (pages.mapIdx fun place item => (item, place)).filterMap fun (item, place) =>
    if item.text.isEmpty then none
    else some ⟨"Page ".toList ++ Ask.decimalInt (pageOf item place), item.text,
      some (pageOf item place)⟩

def sections (body : Text) (source : Option Source) : List Section :=
  if !(Text.strip body).isEmpty then bodySections body
  else
    match source with
    | some source =>
      if source.pageTexts.isEmpty then bodySections body else pageSections source.pageTexts
    | none => bodySections body

/-- The text of `_section_ref_and_text`. -/
def sectionText (s : Section) : Text :=
  let stripped := Text.strip s.body
  if s.pageNumber.isSome then stripped
  else if (Text.strip (stripped.takeWhile (· != '\n'))).head? = some '#' then
    (stripped.dropWhile (· != '\n')).drop 1
  else stripped

def spoken (t : Text) : Bool := !(Text.strip t).isEmpty

variable (U : Unicode) (lower : Text → Text)

/-- The texts of `indexable`: the noise of the source is taken out of them, but where nothing would
be left. -/
def indexable (body : Text) (source : Option Source) : List Text :=
  let texts := (sections body source).map sectionText
  let pages := ((source.map Source.pageTexts).getD []).map PageItem.text
  let boilerplate := Noise.detectBoilerplate U lower (pages.filter (!·.isEmpty))
  if boilerplate.isEmpty then texts
  else
    let denoised := texts.map (Noise.stripNoise U lower boilerplate)
    if denoised.any spoken then denoised else texts

/-! ### Chunks -/

/-- What a row was made from: a child of a section, or of a parent of an artifact. -/
inductive Origin where
  | section (number child : ℕ)
  | artifact (number parent child : ℕ)
  deriving DecidableEq

/-- A row of `article_chunks`. -/
structure ArticleChunk where
  id : Origin
  /-- The parents of a section, or of an artifact, in order. -/
  parentChunkId : ℕ
  /-- `evidence_id`: the artifact, if any. -/
  evidenceId : Option ℕ
  chunkText : Text
  chunkIndex : ℕ
  pageNumber : Option ℤ
  deriving DecidableEq

/-- `a or b` on page numbers. -/
def orPage (a b : Option ℤ) : Option ℤ := if a = some 0 then b else a.or b

/-- The children of some parents, each with its parent and the parent's place. -/
def pendingChildren (parents : List Parent) : List (Text × Parent × ℕ) :=
  (parents.mapIdx fun place parent => (parent, place)).flatMap fun (parent, place) =>
    parent.children.map fun child => (Text.strip child, parent, place)

variable (matchSourcePage : Text → Option ℤ)

/-- The chunks of a section; `matchSourcePage` is `_match_source_page` on the source's pages. -/
def sectionChunks (number : ℕ) (s : Section) (text : Text) : List ArticleChunk :=
  (pendingChildren (createParentChildChunks U text (some s.heading))).mapIdx
    fun child (clean, parent, place) =>
      { id := .section number child
        parentChunkId := place
        evidenceId := none
        chunkText := clean
        chunkIndex := child
        pageNumber := orPage s.pageNumber (orPage (matchSourcePage clean)
          (orPage s.pageNumber (matchSourcePage parent.parentText))) }

def parentChunks (number : ℕ) (spec : Artifact) (place : ℕ) (parent : Parent) :
    List ArticleChunk :=
  (parent.children.mapIdx fun child text => (Text.strip text, child)).filterMap
    fun (clean, child) =>
      if clean.isEmpty then none
      else some
        { id := .artifact number place child
          parentChunkId := place
          evidenceId := some number
          chunkText := clean
          chunkIndex := child
          pageNumber := orPage spec.pageNumber (some 1) }

def artifactParents (spec : Artifact) : List Parent :=
  if spoken spec.searchText then
    createParentChildChunks U (Text.strip spec.searchText)
      (some ((if spec.label.isEmpty then "Evidence".toList else spec.label).take 255))
  else []

def artifactChunks (number : ℕ) (spec : Artifact) : List (List ArticleChunk) :=
  (artifactParents U spec).mapIdx (parentChunks number spec)

/-! ### The run -/

/-- What a run depends on besides the article and its source: the vectors kept from the last run,
and whether `get_text_embeddings` answers for a section or an artifact. -/
structure Embedder where
  reusable : Text → Bool
  answersSection : ℕ → List Text → Bool
  answersArtifact : ℕ → List Text → Bool

/-- The embedder fails for the chunks of a section that are new. -/
def Embedder.failsSection (e : Embedder) (number : ℕ) (chunks : List ArticleChunk) : Bool :=
  let fresh := (chunks.map ArticleChunk.chunkText).filter (!e.reusable ·)
  !fresh.isEmpty && !e.answersSection number fresh

def allSectionChunks (body : Text) (source : Option Source) : List (List ArticleChunk) :=
  ((indexable U lower body source).zip (sections body source)).mapIdx fun number (text, s) =>
    sectionChunks U matchSourcePage number s text

/-- The chunks of every artifact that the embedder answers for, parent by parent. -/
def allArtifactChunks (e : Embedder) (source : Option Source) : List (List ArticleChunk) :=
  (((source.map Source.evidenceSpecs).getD []).mapIdx fun number spec =>
    let chunks := artifactChunks U number spec
    if e.answersArtifact number (chunks.flatten.map ArticleChunk.chunkText) then chunks
    else []).flatten

/-- `_index_article` on a published article: the chunks it commits, or none where the embedder fails
for a section. -/
def indexArticle (e : Embedder) (body : Text) (source : Option Source) :
    Option (List ArticleChunk) :=
  let chunks := allSectionChunks U lower matchSourcePage body source
  if (chunks.mapIdx e.failsSection).any id then none
  else some (chunks.flatten ++ (allArtifactChunks U e source).flatten)

/-- A chunk in the table, with its article. -/
structure Row (α : Type) where
  articleId : α
  chunk : ArticleChunk

variable {α : Type} [DecidableEq α]

/-- `func.min(ArticleChunk.chunk_index)` of an article's ordinary chunks. -/
def leastIndex (table : List (Row α)) (article : α) : Option ℕ :=
  ((table.filter fun row => row.articleId = article ∧ row.chunk.evidenceId = none).map
    (·.chunk.chunkIndex)).min?

/-- The rows that the query of `representative_chunks` returns, in some order. -/
def opening (table : List (Row α)) (articleIds : List α) : List (Row α) :=
  table.filter fun row => row.articleId ∈ articleIds ∧ row.chunk.evidenceId = none ∧
    leastIndex table row.articleId = some row.chunk.chunkIndex

/-- `representative_chunks`, from the rows in the order they come: the first of an article stays. -/
def representative (rows : List (Row α)) (article : α) : Option ArticleChunk :=
  (rows.find? fun row => row.articleId = article).map Row.chunk

end QnscKb.Indexing
