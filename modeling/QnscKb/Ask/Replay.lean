import QnscKb.Access.Agreement
import QnscKb.Ask.Conversation

/-!
# Ask — Replay

The turns of a conversation that are sent to the model again (`_authorized_conversation_history`,
`src/domain/ai_service.py`; `authorized_chunk_ids`, `src/repositories/chunk.py`), beside the turns
its user sees.  Both read the stored citations, but the replay finds markers and ids in more
spellings, asks for no index status, and reads the text with its provenance.
-/

namespace QnscKb.Ask

variable (P : Python)

/-! ### The replay -/

/-- The marker of a stored citation: the one id in `[{source_id or source_index or ''}]`. -/
def replayMarker (citation : Fields) : Option Nat :=
  let value := ((citation.get "source_id").or (citation.get "source_index")).or (.text [])
  match extractCitationIds P.unicode ('[' :: (value.str P ++ [']'])) with
  | [marker] => some marker
  | _ => none

/-- A stored citation as the replay reads it: its marker and its chunk. -/
def replayCitation : Json → Option (Nat × Nat)
  | .object citation =>
    if (Fields.get citation "chunk_id").truthy then do
      let marker ← replayMarker P citation
      let chunkId ← chunkIdOf P citation
      return (marker, chunkId)
    else none
  | _ => none

def StoredCitations.items : StoredCitations → List Json
  | .parsed (.list items) => items
  | _ => []

def sameMarkers (m : AiMessage) (cited : List (Nat × Nat)) : Bool :=
  sameIds (extractCitationIds P.unicode m.groundedOrContent) (cited.map Prod.fst)

/-- `assistant_citations`: the chunks of a turn that can be replayed. -/
def assistantCitations (m : AiMessage) : Option (List Nat) :=
  if m.role = .assistant ∧ m.citations.items ≠ [] then
    ((m.citations.items.mapM (replayCitation P)).filter (sameMarkers P m)).map fun cited =>
      cited.map Prod.snd
  else none

def authorizedChunkIds (st : ReaderState) (chunkIds : List Nat) : List Text :=
  (chunkIds.filter fun id => (st.chunk id).any st.authorizes).map P.uuidText

def authorizedConversationHistory (st : ReaderState) (messages : List AiMessage) :
    List AiMessage :=
  let cited := (messages.filterMap (assistantCitations P)).flatten
  let authorized := authorizedChunkIds P st cited
  messages.filter fun m =>
    m.role == .user ||
      (assistantCitations P m).any fun chunkIds =>
        chunkIds.all fun id => authorized.contains (P.uuidText id)

def CitesReadable (st : ReaderState) (item : Json) (marker : Nat) : Prop :=
  ∃ id, replayCitation P item = some (marker, id) ∧ (st.chunk id).any st.authorizes = true

/-- An answer all of whose citations are of readable chunks, with their markers in its text. -/
structure Replayable (st : ReaderState) (m : AiMessage) : Prop where
  assistant : m.role = .assistant
  cited : m.citations.items ≠ []
  readable : ∀ item ∈ m.citations.items, ∃ marker, CitesReadable P st item marker
  markers : ∀ n, n ∈ extractCitationIds P.unicode m.groundedOrContent ↔
    ∃ item ∈ m.citations.items, ∃ id, replayCitation P item = some (n, id)

variable {P}

/-! ### The turns that are replayed -/

theorem uuidText_injective {s t : Text} {a b : Nat} (ha : P.uuid s = some a)
    (hb : P.uuid t = some b) (h : P.uuidText a = P.uuidText b) : a = b := by
  have hread := P.uuid_uuidText s a ha
  rw [h, P.uuid_uuidText t b hb] at hread
  exact (Option.some.inj hread).symm

theorem sameIds_iff {a b : List Nat} : sameIds a b = true ↔ ∀ n, n ∈ a ↔ n ∈ b := by
  simp only [sameIds, Bool.and_eq_true, List.all_eq_true, List.contains_iff_mem]
  constructor
  · rintro ⟨hab, hba⟩ n
    exact ⟨hab n, hba n⟩
  · intro h
    exact ⟨fun n => (h n).mp, fun n => (h n).mpr⟩

theorem mapM_some_iff {α β : Type} {f : α → Option β} {xs : List α} {ys : List β} :
    xs.mapM f = some ys ↔ xs.map f = ys.map some := by
  induction xs generalizing ys with
  | nil => cases ys <;> simp
  | cons x xs ih =>
    cases ys with
    | nil => simp [List.mapM_cons, Option.bind_eq_some_iff]
    | cons y ys =>
      rw [List.map_cons, List.map_cons, List.cons.injEq, ← ih]
      cases hx : f x <;> cases hxs : xs.mapM f <;> simp [List.mapM_cons, hx, hxs]

theorem mem_of_map_eq {α β : Type} {f : α → Option β} {xs : List α} {ys : List β}
    (h : xs.map f = ys.map some) {y : β} : y ∈ ys ↔ ∃ x ∈ xs, f x = some y := by
  rw [← List.mem_map, h]
  simp

theorem exists_map_eq {α β : Type} {f : β → α} {p : β → Prop} {xs : List α}
    (h : ∀ x ∈ xs, ∃ y, x = f y ∧ p y) : ∃ ys : List β, xs = ys.map f ∧ ∀ y ∈ ys, p y := by
  induction xs with
  | nil => exact ⟨[], rfl, by simp⟩
  | cons x xs ih =>
    obtain ⟨y, rfl, hy⟩ := h x List.mem_cons_self
    obtain ⟨ys, rfl, hys⟩ := ih fun z hz => h z (List.mem_cons_of_mem _ hz)
    exact ⟨y :: ys, rfl, List.forall_mem_cons.mpr ⟨hy, hys⟩⟩

variable {marker : Nat}

theorem replayCitation_object {item : Json} {id : Nat}
    (h : replayCitation P item = some (marker, id)) :
    ∃ citation, item = .object citation ∧ (Fields.get citation "chunk_id").truthy = true ∧
      chunkIdOf P citation = some id := by
  cases item with
  | object citation =>
    simp only [replayCitation] at h
    split at h
    · rename_i hnames
      obtain ⟨m, -, h⟩ := Option.bind_eq_some_iff.mp h
      obtain ⟨i, hi, h⟩ := Option.bind_eq_some_iff.mp h
      cases h
      exact ⟨citation, rfl, hnames, hi⟩
    · cases h
  | _ => cases h

variable {m : AiMessage}

theorem assistantCitations_iff {chunkIds : List Nat} :
    assistantCitations P m = some chunkIds ↔
      m.role = .assistant ∧ m.citations.items ≠ [] ∧
        ∃ cited, m.citations.items.map (replayCitation P) = cited.map some ∧
          sameMarkers P m cited = true ∧ cited.map Prod.snd = chunkIds := by
  rw [assistantCitations]
  by_cases h : m.role = .assistant ∧ m.citations.items ≠ []
  · rw [if_pos h]
    simp only [Option.map_eq_some_iff, Option.filter_eq_some_iff, mapM_some_iff, h, true_and,
      and_assoc, ne_eq, not_false_eq_true]
  · rw [if_neg h]
    constructor
    · intro hnone
      cases hnone
    · rintro ⟨hrole, hitems, -⟩
      exact absurd ⟨hrole, hitems⟩ h

theorem mem_assistantCitations {chunkIds : List Nat} (h : assistantCitations P m = some chunkIds)
    {id : Nat} :
    id ∈ chunkIds ↔ ∃ item ∈ m.citations.items, ∃ n, replayCitation P item = some (n, id) := by
  obtain ⟨-, -, cited, hcited, -, rfl⟩ := assistantCitations_iff.mp h
  constructor
  · intro hid
    obtain ⟨⟨n, _⟩, hx, rfl⟩ := List.mem_map.mp hid
    obtain ⟨item, hitem, hread⟩ := (mem_of_map_eq hcited).mp hx
    exact ⟨item, hitem, n, hread⟩
  · rintro ⟨item, hitem, n, hread⟩
    exact List.mem_map.mpr ⟨(n, id), (mem_of_map_eq hcited).mpr ⟨item, hitem, hread⟩, rfl⟩

theorem sameMarkers_iff {cited : List (Nat × Nat)}
    (h : m.citations.items.map (replayCitation P) = cited.map some) :
    sameMarkers P m cited = true ↔
      ∀ n, n ∈ extractCitationIds P.unicode m.groundedOrContent ↔
        ∃ item ∈ m.citations.items, ∃ id, replayCitation P item = some (n, id) := by
  rw [sameMarkers, sameIds_iff]
  refine forall_congr' fun n => iff_congr Iff.rfl ?_
  simp only [List.mem_map, mem_of_map_eq h]
  constructor
  · rintro ⟨⟨_, id⟩, ⟨item, hitem, hread⟩, rfl⟩
    exact ⟨item, hitem, id, hread⟩
  · rintro ⟨item, hitem, id, hread⟩
    exact ⟨(n, id), ⟨item, hitem, hread⟩, rfl⟩

/-- **A message is replayed** when it is the user's own, or an answer whose citations are all of
readable chunks and are its text's markers. -/
theorem mem_history_iff (st : ReaderState) {messages : List AiMessage} :
    m ∈ authorizedConversationHistory P st messages ↔
      m ∈ messages ∧ (m.role = .user ∨ Replayable P st m) := by
  -- an id of a kept turn is looked up by its text, among those of all turns
  have hauthorized {chunkIds : List Nat} (hmem : m ∈ messages)
      (hids : assistantCitations P m = some chunkIds) {id : Nat} (hid : id ∈ chunkIds) :
      (authorizedChunkIds P st (messages.filterMap (assistantCitations P)).flatten).contains
        (P.uuidText id) = true ↔ (st.chunk id).any st.authorizes = true := by
    have hparsed {m' : AiMessage} {ids : List Nat} (h : assistantCitations P m' = some ids)
        {i : Nat} (hi : i ∈ ids) : ∃ t, P.uuid t = some i := by
      obtain ⟨item, -, n, hread⟩ := (mem_assistantCitations h).mp hi
      obtain ⟨citation, -, -, hchunk⟩ := replayCitation_object hread
      exact ⟨_, hchunk⟩
    obtain ⟨s, hs⟩ := hparsed hids hid
    simp only [authorizedChunkIds, List.contains_iff_mem, List.mem_map, List.mem_filter,
      List.mem_flatten, List.mem_filterMap]
    constructor
    · rintro ⟨other, ⟨⟨ids, ⟨m', -, hm'⟩, hother⟩, hread⟩, htext⟩
      obtain ⟨t, ht⟩ := hparsed hm' hother
      rwa [uuidText_injective hs ht htext.symm]
    · intro hread
      exact ⟨id, ⟨⟨chunkIds, ⟨m, hmem, hids⟩, hid⟩, hread⟩, rfl⟩
  simp only [authorizedConversationHistory, List.mem_filter, Bool.or_eq_true, beq_iff_eq,
    Option.any_eq_true, List.all_eq_true]
  refine and_congr_right fun hmem => or_congr Iff.rfl ?_
  constructor
  · rintro ⟨chunkIds, hids, hall⟩
    obtain ⟨hrole, hitems, cited, hcited, hsame, -⟩ := assistantCitations_iff.mp hids
    refine ⟨hrole, hitems, fun item hitem => ?_, (sameMarkers_iff hcited).mp hsame⟩
    have hsome : replayCitation P item ∈ cited.map some := by
      rw [← hcited]
      exact List.mem_map_of_mem hitem
    obtain ⟨⟨n, id⟩, -, hread⟩ := List.mem_map.mp hsome
    have hid : id ∈ chunkIds := (mem_assistantCitations hids).mpr ⟨item, hitem, n, hread.symm⟩
    exact ⟨n, id, hread.symm, (hauthorized hmem hids hid).mp (hall id hid)⟩
  · rintro ⟨hrole, hitems, hreadable, hmarkers⟩
    have hsome : ∀ x ∈ m.citations.items.map (replayCitation P), ∃ y, x = some y ∧ True := by
      rintro _ hx
      obtain ⟨item, hitem, rfl⟩ := List.mem_map.mp hx
      obtain ⟨n, id, hread, -⟩ := hreadable item hitem
      exact ⟨_, hread, trivial⟩
    obtain ⟨cited, hcited, -⟩ := exists_map_eq hsome
    have hids := assistantCitations_iff.mpr
      ⟨hrole, hitems, cited, hcited, (sameMarkers_iff hcited).mpr hmarkers, rfl⟩
    refine ⟨_, hids, fun id hid => (hauthorized hmem hids hid).mpr ?_⟩
    obtain ⟨item, hitem, n, hread⟩ := (mem_assistantCitations hids).mp hid
    obtain ⟨n', id', hread', hauth⟩ := hreadable item hitem
    rw [hread] at hread'
    cases hread'
    exact hauth

/-! ### What is shown -/

variable (P) in
/-- The view cannot read the source of this citation: it raises. -/
def Raises (item : Json) : Prop :=
  ∃ citation, item = .object citation ∧ (Fields.get citation "chunk_id").truthy = true ∧
    ∃ e, historicalSourceId P citation = .error e

def ReaderState.indexed (st : ReaderState) (id : Nat) : Bool :=
  (st.chunk id).any fun a => a.indexStatus == .ready

variable (P) in
/-- A stored citation that the view reads as the replay does: its id as the database spells it, its
chunk of an indexed article, its source with a number. -/
structure Plain (st : ReaderState) (citation : Fields) : Prop where
  spelled : ∃ id, chunkIdOf P citation = some id ∧
    P.uuidText id = (citation.get "chunk_id").str P ∧ st.indexed id = true
  numbered : (historicalSource P citation).isSome = true

variable (P) in
/-- The view reads of a turn what the replay reads of it: the citations, and, in the text without its
provenance, their sources. -/
structure ReadsAlike (st : ReaderState) (m : AiMessage) : Prop where
  plain : ∀ item ∈ m.citations.items, ∃ citation, item = .object citation ∧ Plain P st citation
  sources : ∀ n, n ∈ extractCitationIds P.unicode (m.groundedText P) ↔
    ∃ citation, .object citation ∈ m.citations.items ∧ historicalSource P citation = some n

variable (P) in
/-- What the view asks of a turn that is replayed, and of the turns about it. -/
structure Displayable (st : ReaderState) (messages : List AiMessage) (m : AiMessage) : Prop where
  parses : ∀ m' ∈ messages, ∀ item ∈ m'.citations.items, ¬ Raises P item
  shown : m.uncitedStatus = true ∨ isSafeHistoricalStatusMessage P m = true ∨ ReadsAlike P st m

variable (P) in
/-- The conversation is displayed, with this turn in it. -/
structure Shown (st : ReaderState) (messages : List AiMessage) (m : AiMessage) : Prop where
  displayed : ∃ views, getConversationMessages P st messages = .ok views
  included : ∃ citations, readMessage P st m = .ok (citations, false)

theorem parseCitation_ok_iff (item : Json) :
    (∃ parsed, parseCitation P item = .ok parsed) ↔ ¬ Raises P item := by
  cases item with
  | object citation =>
    simp only [parseCitation, Raises, Json.object.injEq, exists_eq_left']
    split
    · rename_i hnames
      cases hs : historicalSourceId P citation with
      | error e => simp [hnames, bind, Except.bind]
      | ok source => simp [bind, Except.bind, pure, Except.pure]
    · rename_i hnames
      simp [hnames, pure, Except.pure]
  | _ => simp [parseCitation, Raises, pure, Except.pure]

theorem parseCitations_ok_iff (items : List Json) :
    (∃ result, parseCitations P items = .ok result) ↔ ∀ item ∈ items, ¬ Raises P item := by
  induction items with
  | nil => simp [parseCitations, pure, Except.pure]
  | cons item items ih =>
    rw [List.forall_mem_cons, ← ih, ← parseCitation_ok_iff]
    simp only [parseCitations, bind, Except.bind]
    cases parseCitation P item with
    | error e => simp
    | ok parsed =>
      cases parseCitations P items with
      | error e => simp
      | ok rest => simp [pure, Except.pure]

theorem parse_ok_iff (m : AiMessage) :
    (∃ result, parseHistoricalCitations P m.citations = .ok result) ↔
      ∀ item ∈ m.citations.items, ¬ Raises P item := by
  cases m.citations with
  | blank | unparsable => simp [parseHistoricalCitations, StoredCitations.items, pure, Except.pure]
  | parsed value =>
    cases value with
    | list items => exact parseCitations_ok_iff items
    | _ => simp [parseHistoricalCitations, StoredCitations.items, pure, Except.pure]

theorem parse_wellFormed {raw : List Fields} {malformed : Bool}
    (h : parseHistoricalCitations P m.citations = .ok (raw, malformed)) :
    ∀ c ∈ raw, WellFormed P c := by
  intro c hc
  cases hm : m.citations with
  | blank | unparsable =>
    rw [hm] at h
    cases h
    cases hc
  | parsed value =>
    rw [hm] at h
    cases value with
    | list items => exact (parseCitations_spec h).1 c hc
    | _ =>
      cases h
      cases hc

theorem view_ok_iff (st : ReaderState) (m : AiMessage) :
    (∃ v, view P st m = .ok v) ↔ ∀ item ∈ m.citations.items, ¬ Raises P item := by
  rw [← parse_ok_iff]
  cases hparse : parseHistoricalCitations P m.citations with
  | error e => simp [view, readMessage, hparse, bind, Except.bind]
  | ok result =>
    have hraw := parse_wellFormed hparse
    simp [view, readMessage, hparse, hydrateCitations, hydrateLoop_eq st _ hraw,
      storedMarkers_eq hraw, bind, Except.bind, pure, Except.pure]

theorem displayed_iff (st : ReaderState) (messages : List AiMessage) :
    (∃ views, getConversationMessages P st messages = .ok views) ↔
      ∀ m ∈ messages, ∀ item ∈ m.citations.items, ¬ Raises P item := by
  induction messages with
  | nil => simp [getConversationMessages, pure, Except.pure]
  | cons m ms ih =>
    rw [List.forall_mem_cons, ← ih, ← view_ok_iff st]
    simp only [getConversationMessages, bind, Except.bind]
    cases view P st m with
    | error e => simp
    | ok v =>
      cases getConversationMessages P st ms with
      | error e => simp
      | ok vs => simp [pure, Except.pure]

variable {st : ReaderState}

theorem wellFormed_of_reads {citation : Fields}
    (hread : CitesReadable P st (.object citation) marker) (hraises : ¬ Raises P (.object citation))
    (hsource : (historicalSource P citation).isSome = true) : WellFormed P citation := by
  obtain ⟨id, hreplay, -⟩ := hread
  obtain ⟨_, hobject, hnames, hchunk⟩ := replayCitation_object hreplay
  cases hobject
  refine ⟨hnames, ?_, by simp [hchunk]⟩
  cases hs : historicalSourceId P citation with
  | error e => exact absurd ⟨citation, rfl, hnames, e, hs⟩ hraises
  | ok source =>
    rw [historicalSource, hs] at hsource
    obtain ⟨n, rfl⟩ := Option.isSome_iff_exists.mp hsource
    exact ⟨n, rfl⟩

theorem rehydrates_iff {citation : Fields} (hread : CitesReadable P st (.object citation) marker) :
    Rehydrates P st citation ↔ ∃ id, chunkIdOf P citation = some id ∧
      P.uuidText id = (citation.get "chunk_id").str P ∧ st.indexed id = true := by
  obtain ⟨id, hreplay, hauthorized⟩ := hread
  obtain ⟨_, hobject, -, hchunk⟩ := replayCitation_object hreplay
  cases hobject
  refine exists_congr fun other => and_congr_right fun hother => and_congr_right fun _ => ?_
  obtain rfl : id = other := Option.some.inj (hchunk.symm.trans hother)
  obtain ⟨a, ha, hauth⟩ := (Option.any_eq_true _ _).mp hauthorized
  simp [ReaderState.hydrates, ReaderState.indexed, ha, hauth]

/-- **A turn that is replayed is shown** where the whole conversation parses and the turn is always
shown or read alike by both. -/
theorem replayed_shown_iff {messages : List AiMessage} (hmem : m ∈ messages)
    (hm : Replayable P st m) : Shown P st messages m ↔ Displayable P st messages m := by
  have hparts : Shown P st messages m ↔
      (∀ m' ∈ messages, ∀ item ∈ m'.citations.items, ¬ Raises P item) ∧
        ∃ citations, readMessage P st m = .ok (citations, false) := by
    rw [← displayed_iff st]
    exact ⟨fun h => ⟨h.displayed, h.included⟩, fun h => ⟨h.1, h.2⟩⟩
  have hgoal : Displayable P st messages m ↔
      (∀ m' ∈ messages, ∀ item ∈ m'.citations.items, ¬ Raises P item) ∧
        (m.uncitedStatus = true ∨ isSafeHistoricalStatusMessage P m = true ∨
          ReadsAlike P st m) :=
    ⟨fun h => ⟨h.parses, h.shown⟩, fun h => ⟨h.1, h.2⟩⟩
  rw [hparts, hgoal]
  refine and_congr_right fun hparses => ?_
  obtain ⟨⟨raw, malformed⟩, hparse⟩ := (parse_ok_iff m).mpr (hparses m hmem)
  have hraw := parse_wellFormed hparse
  rw [readMessage_shown_iff st hm.assistant hparse hraw]
  refine or_congr Iff.rfl (or_congr Iff.rfl ?_)
  -- the entries are the parsed citations, as long as none is malformed
  have hlist : m.citations = .parsed (.list m.citations.items) := by
    have hcited := hm.cited
    cases hc : m.citations with
    | blank | unparsable => exact absurd (by rw [hc]; rfl) hcited
    | parsed value =>
      cases value with
      | list items => rfl
      | _ => exact absurd (by rw [hc]; rfl) hcited
  rw [hlist] at hparse
  constructor
  · rintro ⟨-, rfl, hloads, hsame⟩
    have hitems := (parseCitations_spec hparse).2 rfl
    have hobject {c : Fields} : Json.object c ∈ m.citations.items ↔ c ∈ raw := by
      simp [hitems]
    refine ⟨fun item hitem => ?_, fun n => ?_⟩
    · rw [hitems] at hitem
      obtain ⟨c, hc, rfl⟩ := List.mem_map.mp hitem
      obtain ⟨marker, hread⟩ := hm.readable (.object c) (hobject.mpr hc)
      exact ⟨c, rfl, (rehydrates_iff hread).mp (hloads c hc), (hraw c hc).historicalSource_isSome⟩
    · rw [sameIds_iff.mp hsame n]
      simp [hobject]
  · rintro ⟨hplain, hsources⟩
    have hall : ∀ item ∈ m.citations.items, ∃ c, item = .object c ∧
        (WellFormed P c ∧ Rehydrates P st c) := by
      intro item hitem
      obtain ⟨c, rfl, hc⟩ := hplain item hitem
      obtain ⟨marker, hread⟩ := hm.readable _ hitem
      exact ⟨c, rfl, wellFormed_of_reads hread (hparses m hmem _ hitem) hc.numbered,
        (rehydrates_iff hread).mpr hc.spelled⟩
    obtain ⟨cs, hcs, hc⟩ := exists_map_eq hall
    have hdone := parseCitations_map fun c h => (hc c h).1
    rw [parseHistoricalCitations, hcs, hdone] at hparse
    cases hparse
    refine ⟨?_, rfl, fun c h => (hc c h).2, sameIds_iff.mpr fun n => ?_⟩
    · rintro rfl
      exact hm.cited hcs
    · rw [hsources n]
      simp [hcs]

variable (P) in
/-- The turns that are replayed are read as they are stored, and shown. -/
structure ReplayWithinView (st : ReaderState) (messages : List AiMessage) : Prop where
  replayable : ∀ m ∈ authorizedConversationHistory P st messages, m.role = .assistant →
    Replayable P st m
  shown : ∀ m ∈ authorizedConversationHistory P st messages, m.role = .assistant →
    Shown P st messages m

/-- **The replay keeps to the view** where each turn it would keep can be displayed. -/
theorem replay_within_view_iff (P : Python) (st : ReaderState) (messages : List AiMessage) :
    ReplayWithinView P st messages ↔
      ∀ m ∈ messages, Replayable P st m → Displayable P st messages m := by
  have hkept {m : AiMessage} : m ∈ authorizedConversationHistory P st messages ∧
      m.role = .assistant ↔ m ∈ messages ∧ Replayable P st m := by
    rw [mem_history_iff]
    constructor
    · rintro ⟨⟨hmem, huser | hm⟩, hrole⟩
      · rw [huser] at hrole
        cases hrole
      · exact ⟨hmem, hm⟩
    · rintro ⟨hmem, hm⟩
      exact ⟨⟨hmem, Or.inr hm⟩, hm.assistant⟩
  constructor
  · intro h m hmem hm
    obtain ⟨hhistory, hrole⟩ := hkept.mpr ⟨hmem, hm⟩
    exact (replayed_shown_iff hmem hm).mp (h.shown m hhistory hrole)
  · intro h
    constructor
    · intro m hhistory hrole
      exact (hkept.mp ⟨hhistory, hrole⟩).2
    · intro m hhistory hrole
      obtain ⟨hmem, hm⟩ := hkept.mp ⟨hhistory, hrole⟩
      exact (replayed_shown_iff hmem hm).mpr (h m hmem hm)


def citedAnswer : AiMessage where
  role := .assistant
  content := "Restart the machine [C1].".toList
  groundedContent := some "Restart the machine [C1].".toList
  extendedContent := none
  citations := .parsed (.list [.object
    [("source_id", .text "C1".toList), ("source_index", .int 1),
      ("chunk_id", .text (canonicalUuid 1))]])
  actionData := none

def reindexing : ReaderState where
  user := Access.engineer
  departments := [Access.engineering, Access.finance]
  chunk _ := some { Access.financeArticle with indexStatus := .pending }

/-- A turn is replayed and yet withheld from its user. -/
theorem replayed_turn_withheld :
    ¬ ∀ (P : Python) (st : ReaderState) (messages : List AiMessage),
      ReplayWithinView P st messages := by
  intro h
  have hcited : assistantCitations asciiPython citedAnswer = some [1] := by decide +kernel
  have hkept : citedAnswer ∈ authorizedConversationHistory asciiPython reindexing [citedAnswer] := by
    have hreadable : (reindexing.chunk 1).any reindexing.authorizes = true := by decide
    simp [authorizedConversationHistory, hcited, authorizedChunkIds, hreadable]
  obtain ⟨citations, hread⟩ := ((h asciiPython reindexing [citedAnswer]).shown _ hkept rfl).included
  have hwithheld : (readMessage asciiPython reindexing citedAnswer).toOption.map Prod.snd =
      some true := by decide +kernel
  rw [hread] at hwithheld
  cases hwithheld

end QnscKb.Ask
