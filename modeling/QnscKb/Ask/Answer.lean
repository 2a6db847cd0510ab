import QnscKb.Ask.Conflicts

/-!
# Ask — Answer

What `AIService.ask` makes of the model's output (steps 6 and 7), or, where the passages contradict
each other, of the passages alone.  Markers are filtered from the model's text; the texts of
passages are put in after that, and `_answer_payload` normalises once more.
-/

namespace QnscKb.Ask

structure Settings where
  ragEnableExtendedSection : Bool
  ragAllowExtendedOnRefusal : Bool
  ragLowConfidenceScore : Rat

inductive Language
  | vi | en
  deriving DecidableEq, Repr

structure Citation where
  source : Nat
  chunkId : Nat
  childChunkIds : List Nat
  parentChunkId : Option Nat
  articleId : Nat
  title : Text
  sectionRef : Option Text
  heading : Option Text
  sourceRef : Text
  excerpt : Text

/-- A document offered under a refusal. -/
structure RelatedSource where
  source : Nat
  articleId : Nat
  title : Text
  sectionRef : Option Text
  heading : Option Text
  pageNumber : Option Nat
  excerpt : Text

structure AnswerPayload where
  answer : Text
  answerGrounded : Text
  answerExtended : Text
  hasExtended : Bool
  citations : List Citation
  conflictDetected : Bool
  refused : Bool
  refusalText : Text
  relatedSources : List RelatedSource
  analyticsResults : List Calculation
  artifacts : List Artifact

variable (U : Unicode) (S : Settings)

/-- `_answer_payload`, without the extra keys. -/
def answerPayload (grounded extended : Text) (citations : List Citation) : AnswerPayload :=
  let grounded := normalizeAnswerMarkdown U grounded
  let extended :=
    if S.ragEnableExtendedSection then
      stripCitationMarkers U (normalizeAnswerMarkdown U extended)
    else []
  { answer := renderAnswerSections U grounded extended S.ragEnableExtendedSection
    answerGrounded := grounded
    answerExtended := extended
    hasExtended := !extended.isEmpty
    citations := citations
    conflictDetected := false
    refused := false
    refusalText := []
    relatedSources := []
    analyticsResults := []
    artifacts := [] }

def citationOf (row : ContextRow) : Citation where
  source := row.source
  chunkId := row.childIds.headD row.chunkId
  childChunkIds := row.childIds
  parentChunkId := row.parentChunkId
  articleId := row.articleId
  title := row.title
  sectionRef := row.sectionRef
  heading := row.heading
  sourceRef := row.title ++ " - ".toList ++ sectionText row
  excerpt := row.contextText

/-! ### The conflict answer -/

def conflictIntro (language : Language) : Text :=
  if language = .vi then
    "Cơ sở tri thức có thông tin mâu thuẫn. ".toList ++
      "Tôi không thể xác định thông tin nào đang hiện hành.".toList
  else
    "The Knowledge Base contains conflicting information. ".toList ++
      "I cannot determine which statement is current.".toList

/-- An entry's line: `- {statement} — {title} [{source_id}]`. -/
def entryLine (entry : FactEntry) : Text :=
  "- ".toList ++ entry.statement ++ " — ".toList ++ entry.source.title ++ " [".toList ++
    sourceId entry.source.source ++ "]".toList

def conflictLines (conflict : Conflict) : List Text :=
  ("\n**".toList ++ conflict.fact.heading ++ "**".toList) :: conflict.entries.map entryLine

/-- `_conflict_answer`: the text. -/
def conflictText (language : Language) (conflicts : List Conflict) : Text :=
  Text.join ['\n'] (conflictIntro language :: conflicts.flatMap conflictLines)

/-- `_conflict_answer`: one citation for each source, at its first entry. -/
def conflictCitations (conflicts : List Conflict) : List Citation :=
  (conflicts.flatMap Conflict.entries).foldl (fun seen entry =>
    if seen.any fun c => c.source == entry.source.source then seen
    else seen ++ [citationOf entry.source]) []

def conflictPayload (language : Language) (conflicts : List Conflict) : AnswerPayload :=
  let grounded := conflictText language conflicts
  { answerPayload U S grounded [] (conflictCitations conflicts) with
    answer := renderAnswerSections U grounded [] S.ragEnableExtendedSection
    conflictDetected := true }

/-! ### Guards -/

/-- A text holds a literal, letter case ignored, somewhere. -/
def holdsLiteral (pattern : Text) : Text → Bool
  | [] => (afterLiteral U pattern []).isSome
  | c :: t => (afterLiteral U pattern (c :: t)).isSome || holdsLiteral pattern t

/-- A name, white space, `=`. -/
def assigns (name : Text) : Text → Bool
  | [] => false
  | c :: t =>
    ((afterLiteral U name (c :: t)).any fun rest => (Text.lstrip rest).head? == some '=') ||
      assigns name t

def checkOutputGuardrail (answer : Text) : Bool :=
  !(assigns U "password".toList answer || assigns U "api_key".toList answer ||
    assigns U "secret_key".toList answer || holdsLiteral U "db_password".toList answer)

/-- A literal, at most forty characters that end no sentence or line, and one of the tails. -/
def holdsWithin (head : Text) (tails : List Text) : Text → Bool
  | [] => false
  | c :: t =>
    ((afterLiteral U head (c :: t)).any fun rest =>
      (List.range 41).any fun n =>
        n ≤ (rest.takeWhile fun d => d != '.' && d != '\n').length &&
          tails.any fun tail => (afterLiteral U tail (rest.drop n)).isSome) ||
      holdsWithin head tails t

/-- `_REFUSAL_RE.search`. -/
def refusalWording (t : Text) : Bool :=
  holdsLiteral U "not found in the knowledge base".toList t ||
  holdsLiteral U "no information found in the knowledge base".toList t ||
  holdsLiteral U "no information was found in the knowledge base".toList t ||
  holdsLiteral U "no relevant information found in the knowledge base".toList t ||
  holdsLiteral U "no relevant information was found in the knowledge base".toList t ||
  holdsWithin U "không tìm thấy".toList
    ["cơ sở tri thức".toList, "cơ sở kiến thức".toList, "knowledge base".toList] t ||
  holdsWithin U "không có thông tin".toList ["cơ sở tri thức".toList, "cơ sở kiến thức".toList] t ||
  holdsWithin U "không có dữ liệu".toList ["cơ sở tri thức".toList, "cơ sở kiến thức".toList] t

def isGroundingRefusal (groundedAnswer : Text) : Bool :=
  let t := Text.strip groundedAnswer
  !t.isEmpty && t.length ≤ 400 && (extractCitationIds U t).isEmpty && refusalWording U t

def blockedText (language : Language) : Text :=
  if language = .vi then
    "Câu trả lời được tạo đã bị chặn bởi các quy tắc an toàn vì có thể chứa ".toList ++
      "nội dung không an toàn hoặc thuật ngữ bị hạn chế.".toList
  else
    "The generated answer was blocked by our security guardrails as it contains ".toList ++
      "potentially unsafe content or restricted terms.".toList

/-- `UNVERIFIABLE_GROUNDED_ANSWER`, in either language. -/
def unverifiableText (language : Language) : Text :=
  if language = .vi then
    "Không thể tạo câu trả lời có căn cứ từ các nguồn được cấp quyền ".toList ++
      "trong Cơ sở tri thức.".toList
  else
    "I could not produce a grounded answer from the authorized ".toList ++
      "Knowledge Base sources.".toList

def relatedSnippet (row : ContextRow) : Text :=
  compressContext (stripCitationMarkers U (Text.strip row.contextText)) 1500

def relatedPassage (language : Language) (row : ContextRow) : Text :=
  if language = .vi then
    "\n\nMột đoạn có thể liên quan trong **".toList ++ row.title ++ "** (".toList ++
      Text.orElse row.sectionRef "Chung".toList ++
      ") — chưa được xác minh là câu trả lời:\n\n> ".toList ++ relatedSnippet U row
  else
    "\n\nA possibly related passage in **".toList ++ row.title ++ "** (".toList ++
      Text.orElse row.sectionRef "General".toList ++
      ") — not verified as an answer:\n\n> ".toList ++ relatedSnippet U row

/-- `_related_sources`: at most three documents, each at its first passage. -/
def relatedSourcesFrom (seen : List Nat) : Nat → List ContextRow → List RelatedSource
  | 0, _ => []
  | _, [] => []
  | limit + 1, row :: rows =>
    if seen.contains row.articleId then relatedSourcesFrom seen (limit + 1) rows
    else
      { source := row.source
        articleId := row.articleId
        title := row.title
        sectionRef := row.sectionRef
        heading := row.heading
        pageNumber := row.pageNumber
        excerpt :=
          compressContext (stripCitationMarkers U (Text.strip row.contextText)) 400 } ::
        relatedSourcesFrom (row.articleId :: seen) limit rows

def relatedSources (results : List ContextRow) : List RelatedSource :=
  relatedSourcesFrom U [] 3 results

/-! ### The model's answer -/

/-- The sections of an output before the guards: split, provenance and extended markers removed. -/
def cleanedSections (raw : Text) : Text × Text :=
  let (grounded, extended) := splitAnswerSections U raw
  (stripSourceMetadata U grounded,
    if S.ragEnableExtendedSection then
      stripCitationMarkers U (stripSourceMetadata U extended)
    else [])

def knownIds (results : List ContextRow) : List Nat := results.map ContextRow.source

def hasUnknown (results : List ContextRow) (grounded : Text) : Bool :=
  (extractCitationIds U grounded).any fun n => !(knownIds results).contains n

/-- The sections after the unknown markers are dropped, if the grounded one has any. -/
structure Draft where
  grounded : Text
  extended : Text
  /-- `unknown_markers` is not empty. -/
  unknown : Bool

def draftOf (results : List ContextRow) (sections : Text × Text) : Draft :=
  let unknown := hasUnknown U results sections.1
  let filter := fun content =>
    if unknown then stripUnknownMarkers U (knownIds results) content else content
  { grounded := filter sections.1
    extended := filter sections.2
    unknown := unknown }

/-- `float(context_results[0].score) >= RAG_LOW_CONFIDENCE_SCORE`. -/
def topConfident (results : List ContextRow) : Bool :=
  results.head?.any fun row => S.ragLowConfidenceScore ≤ row.score

/-- `context_by_id.get`: the last row of an id. -/
def rowById (results : List ContextRow) (n : Nat) : Option ContextRow :=
  results.reverse.find? fun row => row.source == n

namespace Draft

variable (results : List ContextRow) (d : Draft)

def sourceMatches : List Nat := extractCitationIds U d.grounded

def isRefusal : Bool := isGroundingRefusal U d.grounded

def isOffered : Bool :=
  d.isRefusal U && !(d.unknown && (d.sourceMatches U).isEmpty) && topConfident S results

/-- The output cites nothing and is no refusal. -/
def isUncited : Bool := (d.sourceMatches U).isEmpty && !results.isEmpty && !d.isRefusal U

def shown (language : Language) : Text :=
  if d.isUncited U results then unverifiableText language
  else if d.isOffered U S results then
    d.grounded ++ results.head?.elim [] (relatedPassage U language)
  else d.grounded

def keepsExtended : Bool :=
  !d.isUncited U results && (!d.isRefusal U || S.ragAllowExtendedOnRefusal)

def citations : List Citation :=
  ((d.sourceMatches U).filterMap (rowById results)).map citationOf

end Draft

/-- Steps 6 and 7 on a model's output. -/
def modelPayload (language : Language) (results : List ContextRow) (analytics : List Calculation)
    (artifacts : List Artifact) (raw : Text) : AnswerPayload :=
  let sections := cleanedSections U S raw
  if !checkOutputGuardrail U (sections.1 ++ '\n' :: sections.2) then
    answerPayload U S (blockedText language) [] []
  else
    let d := draftOf U results sections
    let shown := d.shown U S results language
    let extended := if d.keepsExtended U S results then d.extended else []
    let citations := d.citations U results
    { answerPayload U S shown extended citations with
      answer := renderAnswerSections U shown extended S.ragEnableExtendedSection
      refused := d.isRefusal U || d.isUncited U results
      refusalText := if d.isRefusal U then d.grounded else []
      relatedSources := if d.isOffered U S results then relatedSources U results else []
      analyticsResults := analytics.filter fun item => citations.any (·.source == item.source)
      artifacts := artifacts }

/-- `ask` from the chosen passages on. -/
def ask (language : Language) (results : List ContextRow) (analytics : List Calculation)
    (artifacts : List Artifact) (raw : Text) : AnswerPayload :=
  match detectExplicitConflicts U results with
  | [] => modelPayload U S language results analytics artifacts raw
  | conflicts => conflictPayload U S language conflicts

end QnscKb.Ask
