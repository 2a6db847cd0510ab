import QnscKb.Access.ArticleFilters
import QnscKb.Ask.Json
import QnscKb.Ask.Sections

/-!
# Ask — Conversation

What a user sees of a stored conversation (`get_conversation_messages` and its helpers,
`src/api/routers/ai.py`): an assistant turn is withheld unless it is marked uncited, reads as a
status message, or every stored citation is of a chunk the user may read now and the markers of the
text are those of the citations.
-/

namespace QnscKb.Ask

open Access (User Department Article listAdmits)

/-! ### Rows -/

inductive MessageRole where
  | user | assistant | other
  deriving DecidableEq, Repr

/-- `AiMessage.citations`, as `json.loads` finds it. -/
inductive StoredCitations where
  | blank
  | unparsable
  | parsed (value : Json)

/-- A row of `ai_messages`.  `actionData` is its metadata, if it is a `dict`. -/
structure AiMessage where
  role : MessageRole
  content : Text
  groundedContent : Option Text
  extendedContent : Option Text
  citations : StoredCitations
  actionData : Option Fields

/-- The user with the tables the reading depends on: the departments, and of each chunk the article. -/
structure ReaderState where
  user : User
  departments : List Department
  chunk : Nat → Option Article

/-- The chunk's article is published and passes `_authorized_article_filters`. -/
def ReaderState.authorizes (st : ReaderState) (a : Article) : Bool :=
  a.status == .published && listAdmits st.departments st.user a

variable (P : Python)

/-! ### Citations -/

def dropC : Text → Text
  | 'C' :: t => t
  | t => t

/-- The number of a stored `source_id`, if it has the form of one. -/
def sourceIdNumber : Json → Except PyError (Option Int)
  | .text value =>
    let normalized := dropC (P.upper (Text.strip value))
    if !normalized.isEmpty && normalized.all P.isdigit then
      match intOfText P normalized with
      | some n => .ok (some n)
      | none => .error .valueError
    else .ok none
  | _ => .ok none

/-- `_historical_source_id`; `C{n}` is `n`. -/
def historicalSourceId (citation : Fields) : Except PyError (Option Nat) := do
  let number ← sourceIdNumber P (citation.get "source_id")
  if 0 < number.getD 0 then
    return some (number.getD 0).toNat
  let sourceIndex ← (citation.get "source_index").intOrZero P
  return if 0 < sourceIndex then some sourceIndex.toNat else none

/-- The id a stored citation names: `uuid.UUID(str(citation["chunk_id"]))`. -/
def chunkIdOf (citation : Fields) : Option Nat := P.uuid ((citation.get "chunk_id").str P)

/-- A citation as it is parsed: with its marker and its chunk; `none` where it is malformed. -/
def parseCitation : Json → Except PyError (Option Fields)
  | .object citation => do
      if (Fields.get citation "chunk_id").truthy then
        let source ← historicalSourceId P citation
        return if source.isSome && (chunkIdOf P citation).isSome then some citation else none
      else return none
  | _ => return none

def parseCitations : List Json → Except PyError (List Fields × Bool)
  | [] => return ([], false)
  | item :: items => do
    let parsed ← parseCitation P item
    let (citations, malformed) ← parseCitations items
    return (parsed.toList ++ citations, parsed.isNone || malformed)

def parseHistoricalCitations : StoredCitations → Except PyError (List Fields × Bool)
  | .blank => return ([], false)
  | .unparsable => return ([], true)
  | .parsed (.list items) => parseCitations P items
  | .parsed value => return ([], value.truthy)

/-- A citation refreshed from its chunk. -/
structure Hydrated where
  source : Nat
  chunkId : Nat
  deriving DecidableEq

/-- The chunks `_hydrate_citations` loads: readable ones of indexed articles. -/
def ReaderState.hydrates (st : ReaderState) (id : Nat) : Bool :=
  (st.chunk id).any fun a => a.indexStatus == .ready && st.authorizes a

/-- One citation, refreshed; `none` where it is dropped. -/
def hydrateCitation (st : ReaderState) (chunkIds : List Nat) (citation : Fields) :
    Except PyError (Option Hydrated) := do
  let source ← historicalSourceId P citation
  let chunk := (chunkIds.filter st.hydrates).find? fun id =>
    P.uuidText id == (citation.get "chunk_id").str P
  return source.bind fun n => chunk.map fun id => ⟨n, id⟩

def hydrateLoop (st : ReaderState) (chunkIds : List Nat) :
    List Fields → Except PyError (List Hydrated)
  | [] => return []
  | citation :: citations => do
    let hydrated ← hydrateCitation P st chunkIds citation
    let rest ← hydrateLoop st chunkIds citations
    return hydrated.toList ++ rest

/-- `_hydrate_citations`, on parsed citations. -/
def hydrateCitations (st : ReaderState) (citations : List Fields) :
    Except PyError (List Hydrated) :=
  hydrateLoop P st (citations.filterMap (chunkIdOf P)) citations

/-! ### Messages -/

/-- `pattern in t`. -/
def isInfix (pattern : Text) : Text → Bool
  | [] => pattern.isEmpty
  | c :: t => pattern.isPrefixOf (c :: t) || isInfix pattern t

def statusWordings : List Text :=
  ["i could not produce a grounded answer".toList,
    "i could not identify a specific article".toList,
    "i understand this is an update request".toList,
    "i found the article".toList,
    "an edit request was created".toList,
    "was updated because you have permission".toList,
    "tôi không thể tạo câu trả lời có căn cứ".toList,
    "tôi không tìm thấy tài liệu được cấp quyền nào".toList,
    "chưa xác định được tài liệu nào".toList,
    "tôi hiểu đây là yêu cầu cập nhật".toList,
    "tôi tìm thấy tài liệu".toList,
    "đã tạo yêu cầu cập nhật".toList,
    "đã cập nhật".toList]

def isSafeHistoricalStatusMessage (m : AiMessage) : Bool :=
  m.role == .assistant &&
    statusWordings.any fun wording => isInfix wording (P.lower (Text.strip m.content))

def isUncitedText : Json → Bool
  | .text t => t == "uncited".toList
  | _ => false

/-- `uncited_status`: the metadata names an action, a failure or an answer without sources. -/
def AiMessage.uncitedStatus (m : AiMessage) : Bool :=
  m.actionData.any fun data =>
    (data.get "action").truthy || (data.get "failed").truthy || isUncitedText (data.get "grounding")

def AiMessage.groundedOrContent (m : AiMessage) : Text := Text.orElse m.groundedContent m.content

def sameIds (a b : List Nat) : Bool := a.all b.contains && b.all a.contains

def storedMarkers : List Fields → Except PyError (List Nat)
  | [] => return []
  | citation :: citations => do
    let marker ← historicalSourceId P citation
    let markers ← storedMarkers citations
    return marker.toList ++ markers

def AiMessage.groundedText (m : AiMessage) : Text := stripSourceMetadata P.unicode m.groundedOrContent

/-- `inaccessible_source`, of what is parsed and hydrated. -/
def AiMessage.inaccessible (m : AiMessage) (raw : List Fields) (malformed : Bool)
    (hydrated : List Hydrated) (markers : List Nat) : Bool :=
  m.role == .assistant && !m.uncitedStatus && !isSafeHistoricalStatusMessage P m &&
    (raw.isEmpty || malformed || decide (hydrated.length < raw.length) ||
      !sameIds (extractCitationIds P.unicode (m.groundedText P)) markers)

/-- What is sent of a message. -/
structure MessageView where
  role : MessageRole
  content : Text
  answerGrounded : Text
  answerExtended : Text
  hasExtended : Bool
  citations : List Hydrated
  action : Option Json
  actionData : Option Fields
  failed : Bool

def withheldNotice : Text :=
  "This historical answer is no longer available because ".toList ++
    "your access to one or more source documents changed.".toList

def AiMessage.withheldView (m : AiMessage) : MessageView where
  role := m.role
  content := withheldNotice
  answerGrounded := []
  answerExtended := []
  hasExtended := false
  citations := []
  action := none
  actionData := none
  failed := false

def AiMessage.shownView (m : AiMessage) (citations : List Hydrated) : MessageView where
  role := m.role
  content := stripSourceMetadata P.unicode (normalizeAnswerMarkdown P.unicode m.content)
  answerGrounded := if m.role = .assistant then m.groundedText P else []
  answerExtended :=
    if m.role = .assistant then stripSourceMetadata P.unicode (m.extendedContent.getD []) else []
  hasExtended := m.role == .assistant && (m.extendedContent.any fun t => !t.isEmpty)
  citations := citations
  action := m.actionData.bind fun data => if data.isEmpty then none else some (data.get "action")
  actionData := m.actionData
  failed := m.actionData.any fun data => (data.get "failed").truthy

/-- The citations of a turn, refreshed, and whether it is withheld. -/
def readMessage (st : ReaderState) (m : AiMessage) : Except PyError (List Hydrated × Bool) := do
  let (raw, malformed) ← parseHistoricalCitations P m.citations
  let hydrated ← hydrateCitations P st raw
  let markers ← storedMarkers P raw
  return (hydrated, m.inaccessible P raw malformed hydrated markers)

/-- One turn of `get_conversation_messages`. -/
def view (st : ReaderState) (m : AiMessage) : Except PyError MessageView := do
  let (hydrated, withheld) ← readMessage P st m
  return if withheld then m.withheldView else m.shownView P hydrated

def getConversationMessages (st : ReaderState) : List AiMessage → Except PyError (List MessageView)
  | [] => return []
  | m :: ms => do
    let v ← view P st m
    let vs ← getConversationMessages st ms
    return v :: vs

/-! ### Without exceptions -/

/-- The source a stored citation names, where reading it does not raise. -/
def historicalSource (citation : Fields) : Option Nat :=
  match historicalSourceId P citation with
  | .ok source => source
  | .error _ => none

/-- The citation can be refreshed: it spells the id of a loaded chunk as the database does. -/
def Rehydrates (st : ReaderState) (citation : Fields) : Prop :=
  ∃ id, chunkIdOf P citation = some id ∧ P.uuidText id = (citation.get "chunk_id").str P ∧
    st.hydrates id = true

/-- A citation that is parsed. -/
structure WellFormed (citation : Fields) : Prop where
  names : (citation.get "chunk_id").truthy = true
  source : ∃ n, historicalSourceId P citation = .ok (some n)
  chunk : (chunkIdOf P citation).isSome = true

variable {P}

variable {citation : Fields}

theorem WellFormed.historicalSource_isSome (h : WellFormed P citation) :
    (historicalSource P citation).isSome = true := by
  obtain ⟨n, hn⟩ := h.source
  simp [historicalSource, hn]

theorem parseCitation_object (h : WellFormed P citation) :
    parseCitation P (.object citation) = .ok (some citation) := by
  obtain ⟨n, hn⟩ := h.source
  simp [parseCitation, h.names, hn, h.chunk, bind, Except.bind, pure, Except.pure]

theorem parseCitation_some {item : Json} (h : parseCitation P item = .ok (some citation)) :
    item = .object citation ∧ WellFormed P citation := by
  cases item with
  | object fields =>
    simp only [parseCitation] at h
    split at h
    · rename_i hnames
      cases hs : historicalSourceId P fields with
      | error e => simp [hs, bind, Except.bind] at h
      | ok source =>
        simp only [hs, bind, Except.bind] at h
        split at h
        · rename_i hboth
          cases h
          obtain ⟨hsource, hchunk⟩ := Bool.and_eq_true_iff.mp hboth
          obtain ⟨n, rfl⟩ := Option.isSome_iff_exists.mp hsource
          exact ⟨rfl, hnames, ⟨n, hs⟩, hchunk⟩
        · cases h
    · cases h
  | _ => cases h

variable {raw : List Fields}

theorem parseCitations_spec {items : List Json} {malformed : Bool}
    (h : parseCitations P items = .ok (raw, malformed)) :
    (∀ c ∈ raw, WellFormed P c) ∧ (malformed = false → items = raw.map .object) := by
  induction items generalizing raw malformed with
  | nil =>
    cases h
    constructor
    · intro c hc
      cases hc
    · intro _
      rfl
  | cons item items ih =>
    simp only [parseCitations, bind, Except.bind] at h
    cases hp : parseCitation P item with
    | error e => simp [hp] at h
    | ok parsed =>
      cases hr : parseCitations P items with
      | error e => simp [hp, hr] at h
      | ok rest =>
        obtain ⟨hwell, hall⟩ := ih hr
        simp only [hp, hr] at h
        obtain ⟨rfl, rfl⟩ := h
        cases parsed with
        | none => exact ⟨hwell, fun hm => by cases hm⟩
        | some c =>
          obtain ⟨rfl, hc⟩ := parseCitation_some hp
          refine ⟨fun d hd => ?_, fun hm => ?_⟩
          · rcases List.mem_cons.mp hd with rfl | hd
            · exact hc
            · exact hwell d hd
          · rw [hall (by simpa using hm)]
            rfl

theorem parseCitations_map (h : ∀ c ∈ raw, WellFormed P c) :
    parseCitations P (raw.map .object) = .ok (raw, false) := by
  induction raw with
  | nil => rfl
  | cons c raw ih =>
    have hrest := ih fun d hd => h d (List.mem_cons_of_mem c hd)
    simp [parseCitations, parseCitation_object (h c List.mem_cons_self), hrest, bind, Except.bind,
      pure, Except.pure]

def hydratedOf (P : Python) (st : ReaderState) (chunkIds : List Nat) (citation : Fields) :
    Option Hydrated :=
  (historicalSource P citation).bind fun n =>
    ((chunkIds.filter st.hydrates).find? fun id =>
      P.uuidText id == (citation.get "chunk_id").str P).map fun id => ⟨n, id⟩

theorem hydrateLoop_eq (st : ReaderState) (chunkIds : List Nat) (h : ∀ c ∈ raw, WellFormed P c) :
    hydrateLoop P st chunkIds raw = .ok (raw.filterMap (hydratedOf P st chunkIds)) := by
  induction raw with
  | nil => rfl
  | cons c raw ih =>
    obtain ⟨n, hn⟩ := (h c List.mem_cons_self).source
    have hrest := ih fun d hd => h d (List.mem_cons_of_mem c hd)
    have hone : hydrateCitation P st chunkIds c = .ok (hydratedOf P st chunkIds c) := by
      simp [hydrateCitation, hydratedOf, historicalSource, hn, bind, Except.bind, pure,
        Except.pure]
    simp only [hydrateLoop, hone, hrest, bind, Except.bind, pure, Except.pure]
    cases hc : hydratedOf P st chunkIds c with
    | none => simp [hc]
    | some x => simp [hc]

theorem storedMarkers_eq (h : ∀ c ∈ raw, WellFormed P c) :
    storedMarkers P raw = .ok (raw.filterMap (historicalSource P)) := by
  induction raw with
  | nil => rfl
  | cons c raw ih =>
    obtain ⟨n, hn⟩ := (h c List.mem_cons_self).source
    have hrest := ih fun d hd => h d (List.mem_cons_of_mem c hd)
    simp [storedMarkers, historicalSource, hn, hrest, bind, Except.bind, pure, Except.pure]

theorem hydratedOf_isSome_iff {st : ReaderState} (hraw : ∀ c ∈ raw, WellFormed P c)
    (hmem : citation ∈ raw) :
    (hydratedOf P st (raw.filterMap (chunkIdOf P)) citation).isSome = true ↔
      Rehydrates P st citation := by
  obtain ⟨n, hn⟩ := Option.isSome_iff_exists.mp (hraw citation hmem).historicalSource_isSome
  simp only [hydratedOf, hn, Option.bind_some, Option.isSome_map, List.find?_isSome,
    List.mem_filter, beq_iff_eq]
  constructor
  · rintro ⟨id, ⟨hid, hloads⟩, htext⟩
    obtain ⟨other, -, hother⟩ := List.mem_filterMap.mp hid
    -- the id is some citation's, so that its text reads as it; and this citation has its text
    have hcanonical := P.uuid_uuidText _ id hother
    rw [htext] at hcanonical
    exact ⟨id, hcanonical, htext, hloads⟩
  · rintro ⟨id, hid, htext, hloads⟩
    exact ⟨id, ⟨List.mem_filterMap.mpr ⟨citation, hmem, hid⟩, hloads⟩, htext⟩

/-- **A turn that can be read** is shown when it is marked uncited, reads as a status message, or
has citations that can all be refreshed, and those are its text's markers. -/
theorem readMessage_shown_iff (st : ReaderState) {m : AiMessage} (hm : m.role = .assistant)
    {malformed : Bool} (hparse : parseHistoricalCitations P m.citations = .ok (raw, malformed))
    (hraw : ∀ c ∈ raw, WellFormed P c) :
    (∃ hydrated, readMessage P st m = .ok (hydrated, false)) ↔
      m.uncitedStatus = true ∨ isSafeHistoricalStatusMessage P m = true ∨
        (raw ≠ [] ∧ malformed = false ∧ (∀ c ∈ raw, Rehydrates P st c) ∧
          sameIds (extractCitationIds P.unicode (m.groundedText P))
            (raw.filterMap (historicalSource P)) = true) := by
  have hread : readMessage P st m = .ok (raw.filterMap (hydratedOf P st
      (raw.filterMap (chunkIdOf P))), m.inaccessible P raw malformed
        (raw.filterMap (hydratedOf P st (raw.filterMap (chunkIdOf P))))
        (raw.filterMap (historicalSource P))) := by
    simp [readMessage, hparse, hydrateCitations, hydrateLoop_eq st _ hraw, storedMarkers_eq hraw,
      bind, Except.bind, pure, Except.pure]
  have hcomplete : ¬ (raw.filterMap (hydratedOf P st (raw.filterMap (chunkIdOf P)))).length <
      raw.length ↔ ∀ c ∈ raw, Rehydrates P st c := by
    rw [List.length_filterMap_lt_length_iff_exists]
    constructor
    · intro h c hc
      refine (hydratedOf_isSome_iff hraw hc).mp ?_
      by_contra hnone
      exact h ⟨c, hc, by simpa using hnone⟩
    · rintro h ⟨c, hc, hnone⟩
      have hsome := (hydratedOf_isSome_iff hraw hc).mpr (h c hc)
      rw [hnone] at hsome
      cases hsome
  have hflag : (∃ hydrated, readMessage P st m = .ok (hydrated, false)) ↔
      m.inaccessible P raw malformed
        (raw.filterMap (hydratedOf P st (raw.filterMap (chunkIdOf P))))
        (raw.filterMap (historicalSource P)) = false := by
    rw [hread]
    constructor
    · rintro ⟨hydrated, heq⟩
      exact (Prod.mk.inj (Except.ok.inj heq)).2
    · intro h
      exact ⟨_, by rw [h]⟩
  rw [hflag, ← hcomplete]
  simp only [AiMessage.inaccessible, hm]
  generalize m.uncitedStatus = uncited
  generalize isSafeHistoricalStatusMessage P m = safe
  generalize sameIds _ _ = same
  cases uncited <;> cases safe <;> simp [and_assoc]

end QnscKb.Ask
