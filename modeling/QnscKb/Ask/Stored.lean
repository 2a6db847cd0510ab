import QnscKb.Ask.Conversation
import QnscKb.Ask.Markers

/-!
# Ask — Stored

The turns a conversation stores of what `ask` returns (`ask_question` and `_answer_provenance`,
`src/api/routers/ai.py`; `add_message`, `src/repositories/ai.py`).  What a turn quotes is kept
beside it, as the chunks of its passages; the row that is stored knows only its citations.
-/

namespace QnscKb.Ask

def Fields.set (key : String) (value : Json) : Fields → Fields
  | [] => [(key, value)]
  | (k, v) :: fields =>
    if k = key then (key, value) :: fields else (k, v) :: Fields.set key value fields

def Fields.setDefault (fields : Fields) (key : String) (value : Json) : Fields :=
  if (fields.lookup key).isSome then fields else fields.set key value

theorem Fields.get_set_of_ne (fields : Fields) {key other : String} (value : Json)
    (h : other ≠ key) : (fields.set key value).get other = fields.get other := by
  have hne : (other == key) = false := beq_false_of_ne h
  induction fields with
  | nil => simp [Fields.set, Fields.get, List.lookup_cons, hne]
  | cons field fields ih =>
    obtain ⟨k, v⟩ := field
    rw [Fields.set]
    split
    · next hk =>
      subst hk
      simp [Fields.get, List.lookup_cons, hne]
    · simp only [Fields.get, List.lookup_cons] at ih ⊢
      cases other == k with
      | true => rfl
      | false => exact ih

/-! ### What `ask` returns -/

/-- The dict `ask` returns, as far as it is stored.  `extras` are its values for the keys of
`provenanceKeys`. -/
structure AskResult where
  answer : Text
  citations : List Citation
  answerGrounded : Text
  answerExtended : Text
  actionData : Option Fields
  extras : Fields

/-- The keys `_answer_provenance` copies. -/
def provenanceKeys : List String :=
  ["analytics_results", "evidence_status", "artifacts", "unverified_numbers", "agent_trace",
    "agent_plan", "coverage", "refused", "refusal_text", "related_sources"]

/-- A key of `ask`'s dict, copied if it holds anything. -/
def copyKey (extras stored : Fields) (key : String) : Fields :=
  if (extras.get key).truthy then stored.set key (extras.get key) else stored

/-- What `_answer_provenance` adds the keys to. -/
def AskResult.marks (data : AskResult) : Fields :=
  if data.citations.isEmpty then
    (data.actionData.getD []).setDefault "grounding" (.text "uncited".toList)
  else data.actionData.getD []

def answerProvenance (data : AskResult) : Option Fields :=
  let stored := provenanceKeys.foldl (copyKey data.extras) data.marks
  if stored.isEmpty then none else some stored

variable (P : Python)

def optionText : Option Text → Json
  | some t => .text t
  | none => .null

/-- A citation in the dict `ask` returns. -/
def Citation.fields (c : Citation) : Fields :=
  [("source_id", .text (sourceId c.source)),
    ("source_index", .int c.source),
    ("chunk_id", .text (P.uuidText c.chunkId)),
    ("child_chunk_ids", .list (c.childChunkIds.map fun id => .text (P.uuidText id))),
    ("parent_chunk_id", optionText (c.parentChunkId.map P.uuidText)),
    ("article_id", .text (P.uuidText c.articleId)),
    ("title", .text c.title),
    ("section_ref", optionText c.sectionRef),
    ("heading", optionText c.heading),
    ("source_ref", .text c.sourceRef),
    ("excerpt", .text c.excerpt)]

/-- The row `add_message` writes, as it is read back. -/
def AskResult.message (data : AskResult) : AiMessage where
  role := .assistant
  content := data.answer
  groundedContent := some data.answerGrounded
  extendedContent := some data.answerExtended
  citations := .parsed (.list (data.citations.map fun c => .object (c.fields P)))
  actionData := answerProvenance data

/-! ### Turns -/

/-- A citation of a numbered passage: its number is written in decimal, its chunk id is a `UUID`. -/
structure Citable (c : Citation) : Prop where
  positive : 0 < c.source
  short : (decimal c.source).length ≤ maxIntDigits
  identified : P.uuid (P.uuidText c.chunkId) = some c.chunkId

/-- The passages of an answer, numbered from one on. -/
structure Passages where
  rows : List ContextRow
  citable : ∀ row ∈ rows, Citable P (citationOf row)

/-- The citations of a cached answer. -/
structure CachedCitations where
  citations : List Citation
  citable : ∀ c ∈ citations, Citable P c

/-- The article an edit is for: the text that is shown of it, with the chunks it is cut from. -/
structure EditTarget where
  articleId : Nat
  title : Text
  originalInformation : Text
  articlePreview : Text
  chunkIds : List Nat

/-- The actions of the turns that change an article. -/
inductive EditAction where
  | articleUpdated (articleId : Nat) (title : Text) (version : Nat)
  | editRequestCreated (articleId : Nat) (title instruction : Text)

/-- `action_data` of an edit. -/
def EditAction.fields : EditAction → Fields
  | .articleUpdated articleId title version =>
    [("action", .text "article_updated".toList), ("article_id", .text (P.uuidText articleId)),
      ("article_title", .text title), ("version", .int version)]
  | .editRequestCreated articleId title instruction =>
    [("action", .text "edit_request_created".toList),
      ("article_id", .text (P.uuidText articleId)), ("article_title", .text title),
      ("edit_instruction", .text instruction)]

def confirmationText (language : Language) (target : EditTarget) (instruction : Text) : Text :=
  if language = .vi then
    "Tôi tìm thấy tài liệu **".toList ++ target.title ++
      "**. Đây có đúng là tài liệu bạn muốn cập nhật không?\n\n".toList ++
      "**Thông tin gốc:** ".toList ++ target.originalInformation ++ "\n\n".toList ++
      "**Thông tin sẽ cập nhật:** ".toList ++ instruction ++ "\n\n".toList ++
      "Nếu đúng, hãy chọn **Đúng, cập nhật** hoặc trả lời **Có**. ".toList ++
      "Chưa có thay đổi nào được thực hiện.".toList
  else
    "I found the article **".toList ++ target.title ++
      "**. Is this the article you want to update?\n\n".toList ++
      "**Original information:** ".toList ++ target.originalInformation ++ "\n\n".toList ++
      "**Information to update:** ".toList ++ instruction ++ "\n\n".toList ++
      "If yes, choose **Yes, update** or reply **Yes**. Nothing has been changed yet.".toList

/-- `action_data` of an edit to be confirmed. -/
def EditTarget.fields (target : EditTarget) (instruction question : Text) : Fields :=
  [("action", .text "edit_confirmation_required".toList),
    ("article_id", .text (P.uuidText target.articleId)), ("article_title", .text target.title),
    ("original_information", .text target.originalInformation), ("will_update", .text instruction),
    ("article_preview", .text target.articlePreview), ("edit_instruction", .text question)]

def servedPayload (S : Settings) (ragCacheExtendedSection : Bool) (stored : Text)
    (citations : List Citation) : AnswerPayload :=
  let (cachedGrounded, cachedExtended) := splitAnswerSections P.unicode stored
  let grounded := stripSourceMetadata P.unicode cachedGrounded
  let extended := stripCitationMarkers P.unicode (stripSourceMetadata P.unicode
    (if ragCacheExtendedSection then cachedExtended else []))
  { answerPayload P.unicode S grounded extended
      (if isGroundingRefusal P.unicode grounded then [] else citations) with
    answer := renderAnswerSections P.unicode grounded extended S.ragEnableExtendedSection }

/-- What `ask` can return: an answer from passages or digests or from the cache, an edit to be
confirmed, or a text made of no passage. -/
inductive Turn where
  | answered (S : Settings) (language : Language) (passages : Passages P)
      (analytics : List Calculation) (artifacts : List Artifact) (raw : Text) (extras : Fields)
  | corpus (S : Settings) (language : Language) (passages : Passages P)
      (analytics : List Calculation) (artifacts : List Artifact) (raw : Text) (extras : Fields)
  | cached (S : Settings) (ragCacheExtendedSection : Bool) (stored : Text)
      (citations : CachedCitations P)
  | confirmation (S : Settings) (language : Language) (target : EditTarget)
      (instruction question : Text)
  | status (S : Settings) (text : Text) (action : Option EditAction) (extras : Fields)

def AnswerPayload.result (p : AnswerPayload) (actionData : Option Fields) (extras : Fields) :
    AskResult where
  answer := p.answer
  citations := p.citations
  answerGrounded := p.answerGrounded
  answerExtended := p.answerExtended
  actionData := actionData
  extras := extras

def Turn.result : Turn P → AskResult
  | .answered S language passages analytics artifacts raw extras =>
    (ask P.unicode S language passages.rows analytics artifacts raw).result none extras
  | .corpus S language passages analytics artifacts raw extras =>
    (modelPayload P.unicode S language passages.rows analytics artifacts raw).result none extras
  | .cached S ragCacheExtendedSection stored citations =>
    (servedPayload P S ragCacheExtendedSection stored citations.citations).result none []
  | .confirmation S language target instruction question =>
    (answerPayload P.unicode S (confirmationText language target instruction) [] []).result
      (some (target.fields P instruction question)) []
  | .status S text action extras =>
    (answerPayload P.unicode S text [] []).result (action.map (EditAction.fields P)) extras

def Turn.message (turn : Turn P) : AiMessage := (turn.result P).message P

def Artifact.source : Artifact → Nat
  | .chart c => c.source
  | .figure n => n

/-- The passages in an answer of the model: those its markers name, those offered under a refusal,
and those its artifacts draw from. -/
def quotedRows (U : Unicode) (S : Settings) (results : List ContextRow) (artifacts : List Artifact)
    (raw : Text) : List ContextRow :=
  let sections := cleanedSections U S raw
  let d := draftOf U results sections
  if checkOutputGuardrail U (sections.1 ++ '\n' :: sections.2) then
    (d.sourceMatches U).filterMap (rowById results) ++
      (if d.isOffered U S results then
        results.head?.toList ++
          (relatedSources U results).filterMap fun related => rowById results related.source
      else []) ++
      artifacts.filterMap fun artifact => rowById results artifact.source
  else []

/-- The passages in an answer: of a conflict, those that state the facts. -/
def quotedByAsk (U : Unicode) (S : Settings) (results : List ContextRow) (artifacts : List Artifact)
    (raw : Text) : List ContextRow :=
  match detectExplicitConflicts U results with
  | [] => quotedRows U S results artifacts raw
  | conflicts => (shownEntries conflicts).map FactEntry.source

def Turn.quoted : Turn P → List Nat
  | .answered S _ passages _ artifacts raw _ =>
    (quotedByAsk P.unicode S passages.rows artifacts raw).map fun row => (citationOf row).chunkId
  | .corpus S _ passages _ artifacts raw _ =>
    (quotedRows P.unicode S passages.rows artifacts raw).map fun row => (citationOf row).chunkId
  | .cached S ragCacheExtendedSection stored citations =>
    (servedPayload P S ragCacheExtendedSection stored citations.citations).citations.map
      Citation.chunkId
  | .confirmation _ _ target _ _ => target.chunkIds
  | .status .. => []

/-! ### Citations as they are read back -/

variable {P}

theorem strip_eq_self_of_alphanum {t : Text} (h : ∀ c ∈ t, Text.isSpace c = false) :
    Text.strip t = t :=
  Text.strip_eq_self (fun c hc => h c (List.mem_of_mem_head? hc))
    fun c hc => h c (List.mem_of_mem_getLast? hc)

theorem decimal_ne_nil (n : Nat) : decimal n ≠ [] :=
  List.ne_nil_of_length_pos Nat.length_toDigits_pos

theorem intOfText_decimal {n : Nat} (h : (decimal n).length ≤ maxIntDigits) :
    intOfText P (decimal n) = some (n : Int) := by
  have hdigit : ∀ c ∈ decimal n, c.isDigit = true := fun c hc => isDigit_of_mem_decimal hc
  have hstrip : Text.strip (decimal n) = decimal n :=
    strip_eq_self_of_alphanum fun c hc => isSpace_of_isDigit (hdigit c hc)
  have hread : intOfDigits P (decimal n) = some n := by
    have hsplit : (decimal n).splitOn '_' = [decimal n] :=
      List.splitOn_eq_singleton fun hc => absurd (hdigit _ hc) (by decide)
    have hvalue : intOf P.unicode (decimal n) = some n := intOf_toDigits n
    simp [intOfDigits, hsplit, hvalue, h, decimal_ne_nil]
  obtain ⟨c, t, hcons⟩ := List.exists_cons_of_ne_nil (decimal_ne_nil n)
  have hc : c.isDigit = true := hdigit c (hcons ▸ List.mem_cons_self)
  rw [intOfText, hstrip]
  -- a digit is no sign
  split
  · next heq =>
    obtain rfl := (List.cons.inj (hcons.symm.trans heq)).1
    exact absurd hc (by decide)
  · next heq =>
    obtain rfl := (List.cons.inj (hcons.symm.trans heq)).1
    exact absurd hc (by decide)
  · simp [hread]

theorem sourceIdNumber_sourceId {n : Nat} (h : (decimal n).length ≤ maxIntDigits) :
    sourceIdNumber P (.text (sourceId n)) = .ok (some (n : Int)) := by
  have hstrip : Text.strip (sourceId n) = sourceId n := by
    refine strip_eq_self_of_alphanum fun c hc => ?_
    rcases List.mem_cons.mp hc with rfl | hc
    · decide
    · exact isSpace_of_isDigit (isDigit_of_mem_decimal hc)
  have hdrop : dropC (sourceId n) = decimal n := rfl
  have hdigits : (decimal n).all P.isdigit = true :=
    List.all_eq_true.mpr fun c hc => P.isdigit_of_isDigit c (isDigit_of_mem_decimal hc)
  simp [sourceIdNumber, hstrip, P.upper_sourceId, hdrop, hdigits, decimal_ne_nil,
    intOfText_decimal h]

section

variable {c : Citation} (h : Citable P c)
include h

theorem Citable.historicalSourceId_fields :
    historicalSourceId P (c.fields P) = .ok (some c.source) := by
  have hget : (c.fields P).get "source_id" = .text (sourceId c.source) := rfl
  simp [historicalSourceId, hget, sourceIdNumber_sourceId h.short, h.positive, bind, Except.bind,
    pure, Except.pure]

theorem Citable.historicalSource_fields : historicalSource P (c.fields P) = some c.source := by
  rw [historicalSource, h.historicalSourceId_fields]

theorem Citable.chunkIdOf_fields : chunkIdOf P (c.fields P) = some c.chunkId := h.identified

/-- The citations of a stored turn are parsed as they were written. -/
theorem Citable.wellFormed : WellFormed P (c.fields P) where
  names := by
    have hget : (c.fields P).get "chunk_id" = .text (P.uuidText c.chunkId) := rfl
    have hne : P.uuidText c.chunkId ≠ [] := by
      intro hnil
      have hread := h.identified
      rw [hnil, P.uuid_nil] at hread
      cases hread
    simpa [hget, Json.truthy] using hne
  source := ⟨c.source, h.historicalSourceId_fields⟩
  chunk := by simp [h.chunkIdOf_fields]

theorem Citable.rehydrates_iff (st : ReaderState) :
    Rehydrates P st (c.fields P) ↔ st.hydrates c.chunkId = true := by
  constructor
  · rintro ⟨id, hid, -, hloads⟩
    obtain rfl : c.chunkId = id := Option.some.inj (h.chunkIdOf_fields.symm.trans hid)
    exact hloads
  · intro hloads
    exact ⟨c.chunkId, h.chunkIdOf_fields, rfl, hloads⟩

end

/-! ### The citations of a turn -/

variable {c : Citation}

theorem exists_entry_of_mem_conflictCitations {conflicts : List Conflict}
    (h : c ∈ conflictCitations conflicts) :
    ∃ entry ∈ shownEntries conflicts, c = citationOf entry.source := by
  have hfold : ∀ (entries : List FactEntry) (seen : List Citation),
      c ∈ entries.foldl (fun seen entry =>
        if seen.any fun c => c.source == entry.source.source then seen
        else seen ++ [citationOf entry.source]) seen →
      c ∈ seen ∨ ∃ entry ∈ entries, c = citationOf entry.source := by
    intro entries
    induction entries with
    | nil => exact fun seen hc => Or.inl hc
    | cons entry entries ih =>
      intro seen hc
      rcases ih _ hc with hseen | ⟨other, hother, rfl⟩
      · beta_reduce at hseen
        split at hseen
        · exact Or.inl hseen
        · rcases List.mem_append.mp hseen with hseen | hnew
          · exact Or.inl hseen
          · exact Or.inr ⟨entry, List.mem_cons_self, List.mem_singleton.mp hnew⟩
      · exact Or.inr ⟨other, List.mem_cons_of_mem _ hother, rfl⟩
  rcases hfold _ _ h with hnil | hentry
  · cases hnil
  · exact hentry

theorem answerPayload_citations (U : Unicode) (S : Settings) (grounded extended : Text)
    (citations : List Citation) :
    (answerPayload U S grounded extended citations).citations = citations := by
  rw [answerPayload]

theorem exists_row_of_mem_modelPayload {U : Unicode} {S : Settings} {language : Language}
    {results : List ContextRow} {analytics : List Calculation} {artifacts : List Artifact}
    {raw : Text} (h : c ∈ (modelPayload U S language results analytics artifacts raw).citations) :
    ∃ row ∈ results, c = citationOf row := by
  simp only [modelPayload] at h
  split at h
  · rw [answerPayload_citations] at h
    cases h
  · simp only [answerPayload_citations, Draft.citations, List.mem_map, List.mem_filterMap] at h
    obtain ⟨row, ⟨n, -, hfound⟩, hc⟩ := h
    exact ⟨row, (rowById_some hfound).1, hc.symm⟩

theorem exists_row_of_mem_ask {U : Unicode} {S : Settings} {language : Language}
    {results : List ContextRow} {analytics : List Calculation} {artifacts : List Artifact}
    {raw : Text} (h : c ∈ (ask U S language results analytics artifacts raw).citations) :
    ∃ row ∈ results, c = citationOf row := by
  rw [ask] at h
  split at h
  · exact exists_row_of_mem_modelPayload h
  · simp only [conflictPayload] at h
    obtain ⟨entry, hentry, rfl⟩ := exists_entry_of_mem_conflictCitations h
    exact ⟨entry.source, source_of_mem_shownEntries hentry, rfl⟩

theorem Turn.citable (turn : Turn P) : ∀ c ∈ (turn.result P).citations, Citable P c := by
  intro c hc
  cases turn <;> simp only [Turn.result, AnswerPayload.result] at hc
  case answered S language passages analytics artifacts raw extras =>
    obtain ⟨row, hrow, rfl⟩ := exists_row_of_mem_ask hc
    exact passages.citable row hrow
  case corpus S language passages analytics artifacts raw extras =>
    obtain ⟨row, hrow, rfl⟩ := exists_row_of_mem_modelPayload hc
    exact passages.citable row hrow
  case cached S ragCacheExtendedSection stored citations =>
    simp only [servedPayload, answerPayload_citations] at hc
    split at hc
    · cases hc
    · exact citations.citable c hc
  case confirmation | status =>
    cases hc

/-! ### The mark of a turn without sources -/

theorem get_foldl_copyKey (extras : Fields) {key : String} (keys : List String)
    (stored : Fields) (h : key ∉ keys) :
    (keys.foldl (copyKey extras) stored).get key = stored.get key := by
  induction keys generalizing stored with
  | nil => rfl
  | cons k keys ih =>
    obtain ⟨hk, hkeys⟩ := not_or.mp (fun hor => h (List.mem_cons.mpr hor))
    rw [List.foldl_cons, ih _ hkeys, copyKey]
    split
    · exact Fields.get_set_of_ne stored _ hk
    · rfl

theorem answerProvenance_get (data : AskResult) (key : String) (h : key ∉ provenanceKeys) :
    ((answerProvenance data).getD []).get key = data.marks.get key := by
  rw [← get_foldl_copyKey data.extras provenanceKeys data.marks h]
  rw [answerProvenance]
  split
  · next hempty => rw [Option.getD_none, List.isEmpty_iff.mp hempty]
  · rfl

theorem uncitedStatus_eq (data : AskResult) :
    (data.message P).uncitedStatus = ((data.marks.get "action").truthy ||
      (data.marks.get "failed").truthy || isUncitedText (data.marks.get "grounding")) := by
  rw [← answerProvenance_get data "action" (by decide),
    ← answerProvenance_get data "failed" (by decide),
    ← answerProvenance_get data "grounding" (by decide)]
  simp only [AskResult.message]
  cases answerProvenance data with
  | none => rfl
  | some stored => rfl

theorem uncitedStatus_of_action {data : AskResult} {fields : Fields}
    (h : data.actionData = some fields) (haction : (fields.get "action").truthy = true) :
    (data.message P).uncitedStatus = true := by
  have hget : data.marks.get "action" = fields.get "action" := by
    simp only [AskResult.marks, h]
    split
    · rw [Fields.setDefault]
      split
      · rfl
      · exact Fields.get_set_of_ne fields _ (by decide)
    · rfl
  rw [uncitedStatus_eq, hget, haction]
  rfl

theorem uncitedStatus_of_plain {data : AskResult} (h : data.actionData = none) :
    (data.message P).uncitedStatus = true ↔ data.citations = [] := by
  rw [uncitedStatus_eq, AskResult.marks, h]
  cases data.citations with
  | nil => simp [Fields.setDefault, Fields.set, Fields.get, isUncitedText]
  | cons c cs => simp [Fields.get, Json.truthy, isUncitedText]

/-- **A turn is marked uncited** exactly when it has no citation. -/
theorem Turn.uncitedStatus_iff (turn : Turn P) :
    (turn.message P).uncitedStatus = true ↔ (turn.result P).citations = [] := by
  cases turn with
  | answered => exact uncitedStatus_of_plain rfl
  | corpus => exact uncitedStatus_of_plain rfl
  | cached => exact uncitedStatus_of_plain rfl
  | confirmation => exact iff_of_true (uncitedStatus_of_action rfl rfl) rfl
  | status S text action extras =>
    cases action with
    | none => exact uncitedStatus_of_plain rfl
    | some action =>
      refine iff_of_true (uncitedStatus_of_action rfl ?_) rfl
      cases action <;> rfl

end QnscKb.Ask
