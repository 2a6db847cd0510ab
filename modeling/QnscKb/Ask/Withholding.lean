import QnscKb.Ask.Replay
import QnscKb.Ask.Stored

/-!
# Ask — Withholding

A stored answer against the permissions of its reader.  Withholding is decided from the citations of
a turn, its markers, its mark and its wording; what a turn quotes also comes from a refusal's
passages, a chart or the article of an edit, which leave no citation.
-/

namespace QnscKb.Ask

variable (P : Python)

/-- A row of a conversation: a question, what `ask` returned, or a failure. -/
inductive Entry where
  | question (text : Text)
  | reply (turn : Turn P)
  | failure (detail : Text)

def Entry.message : Entry P → AiMessage
  | .question text =>
    { role := .user
      content := text
      groundedContent := none
      extendedContent := none
      citations := .parsed (.list [])
      actionData := none }
  | .reply turn => turn.message P
  | .failure detail =>
    { role := .assistant
      content := detail
      groundedContent := none
      extendedContent := none
      citations := .parsed (.list [])
      actionData := some [("failed", .bool true), ("grounding", .text "uncited".toList)] }

def conversation (entries : List (Entry P)) : List AiMessage := entries.map (Entry.message P)

/-! ### What is asked of a turn -/

def ReaderState.reads (st : ReaderState) (id : Nat) : Bool := (st.chunk id).any st.authorizes

/-- A turn is shown only while all it quotes is readable; with citations, it is shown while all
their chunks are. -/
structure ShownWhileReadable (st : ReaderState) (entries : List (Entry P)) (turn : Turn P) :
    Prop where
  revoked : Shown P st (conversation P entries) (turn.message P) →
    ∀ id ∈ turn.quoted P, st.reads id = true
  kept : (turn.result P).citations ≠ [] →
    (∀ c ∈ (turn.result P).citations, st.hydrates c.chunkId = true) →
      Shown P st (conversation P entries) (turn.message P)

def Turn.AlwaysShown (turn : Turn P) : Prop :=
  (turn.result P).citations = [] ∨ isSafeHistoricalStatusMessage P (turn.message P) = true

/-- The markers of a turn, as they are read again, are those of its citations. -/
def Turn.Marked (turn : Turn P) : Prop :=
  ∀ n, n ∈ extractCitationIds P.unicode ((turn.message P).groundedText P) ↔
    n ∈ (turn.result P).citations.map Citation.source

/-- A turn that is always shown quotes nothing; any other cites all it quotes, and its markers are
read again. -/
structure Turn.WellSourced (turn : Turn P) : Prop where
  unquoted : turn.AlwaysShown P → turn.quoted P = []
  marked : ¬ turn.AlwaysShown P → turn.Marked P
  cited : ¬ turn.AlwaysShown P →
    ∀ id ∈ turn.quoted P, id ∈ (turn.result P).citations.map Citation.chunkId

variable {P}

/-! ### The turns that are shown -/

theorem entry_parses (entry : Entry P) :
    ∀ item ∈ (entry.message P).citations.items, ¬ Raises P item := by
  cases entry with
  | question | failure =>
    intro item hitem
    cases hitem
  | reply turn =>
    intro item hitem
    obtain ⟨c, hc, rfl⟩ := List.mem_map.mp hitem
    rintro ⟨citation, hobject, -, e, he⟩
    cases hobject
    rw [(turn.citable c hc).historicalSourceId_fields] at he
    cases he

theorem conversation_displayed (st : ReaderState) (entries : List (Entry P)) :
    ∃ views, getConversationMessages P st (conversation P entries) = .ok views := by
  rw [displayed_iff]
  intro m hm
  obtain ⟨entry, -, rfl⟩ := List.mem_map.mp hm
  exact entry_parses entry

theorem Turn.wellFormed (turn : Turn P) :
    ∀ c ∈ (turn.result P).citations.map fun c => c.fields P, WellFormed P c := by
  intro fields hfields
  obtain ⟨c, hc, rfl⟩ := List.mem_map.mp hfields
  exact (turn.citable c hc).wellFormed

theorem parse_message (turn : Turn P) :
    parseHistoricalCitations P (turn.message P).citations =
      .ok ((turn.result P).citations.map fun c => c.fields P, false) := by
  have hparse := parseCitations_map turn.wellFormed
  rw [List.map_map] at hparse
  exact hparse

/-- **A turn is shown** when it always is, or when all its citations can be read and its markers are
theirs. -/
theorem turn_shown_iff (st : ReaderState) (entries : List (Entry P)) (turn : Turn P) :
    Shown P st (conversation P entries) (turn.message P) ↔
      turn.AlwaysShown P ∨
        ((∀ c ∈ (turn.result P).citations, st.hydrates c.chunkId = true) ∧ turn.Marked P) := by
  have hincluded : Shown P st (conversation P entries) (turn.message P) ↔
      ∃ citations, readMessage P st (turn.message P) = .ok (citations, false) :=
    ⟨fun h => h.included, fun h => ⟨conversation_displayed st entries, h⟩⟩
  have hloads : (∀ c ∈ (turn.result P).citations.map fun c => c.fields P, Rehydrates P st c) ↔
      ∀ c ∈ (turn.result P).citations, st.hydrates c.chunkId = true := by
    rw [List.forall_mem_map]
    exact forall₂_congr fun c hc => (turn.citable c hc).rehydrates_iff st
  have hsources : ((turn.result P).citations.map fun c => c.fields P).filterMap
      (historicalSource P) = (turn.result P).citations.map Citation.source := by
    rw [List.filterMap_map, ← List.filterMap_eq_map]
    exact List.filterMap_congr fun c hc => (turn.citable c hc).historicalSource_fields
  rw [hincluded, readMessage_shown_iff st rfl (parse_message turn) turn.wellFormed, hloads, hsources,
    turn.uncitedStatus_iff, sameIds_iff, Turn.AlwaysShown, Turn.Marked, or_assoc]
  refine or_congr_right' fun hcited => or_congr_right ?_
  simp [hcited]

/-! ### The turns that follow their sources -/

/-- A state of the permissions in which these chunks can be read, and no others. -/
def readingOnly (ids : List Nat) : ReaderState where
  user := Access.engineer
  departments := [Access.engineering, Access.finance]
  chunk id := if id ∈ ids then some Access.financeArticle else none

variable {id : Nat}

theorem readingOnly_hydrates {ids : List Nat} (h : id ∈ ids) :
    (readingOnly ids).hydrates id = true := by
  have hchunk : (readingOnly ids).chunk id = some Access.financeArticle := if_pos h
  have hauthorized : (readingOnly []).authorizes Access.financeArticle = true := by decide
  rw [ReaderState.hydrates, hchunk]
  exact Bool.and_eq_true_iff.mpr ⟨rfl, hauthorized⟩

theorem mem_of_readingOnly_reads {ids : List Nat} (h : (readingOnly ids).reads id = true) :
    id ∈ ids := by
  by_contra hid
  simp [ReaderState.reads, readingOnly, hid] at h

theorem reads_of_hydrates {st : ReaderState} (h : st.hydrates id = true) : st.reads id = true := by
  obtain ⟨a, ha, hboth⟩ := (Option.any_eq_true _ _).mp h
  exact (Option.any_eq_true _ _).mpr ⟨a, ha, (Bool.and_eq_true_iff.mp hboth).2⟩

theorem wellSourced_of_shownWhileReadable {entries : List (Entry P)} {turn : Turn P}
    (h : ∀ st, ShownWhileReadable P st entries turn) : turn.WellSourced P := by
  refine ⟨fun halways => ?_, fun hnot => ?_, fun hnot id hid => ?_⟩
  · -- nothing can be read, and the turn is shown
    have hshown := (turn_shown_iff (readingOnly []) entries turn).mpr (Or.inl halways)
    refine List.eq_nil_iff_forall_not_mem.mpr fun id hid => ?_
    cases mem_of_readingOnly_reads ((h _).revoked hshown id hid)
  all_goals
    -- just what it cites can be read, so that it is shown
    have hshown := (h (readingOnly ((turn.result P).citations.map Citation.chunkId))).kept
      (fun hnil => hnot (Or.inl hnil))
      (fun c hc => readingOnly_hydrates (List.mem_map_of_mem hc))
  · exact ((turn_shown_iff _ entries turn).mp hshown).resolve_left hnot |>.2
  · exact mem_of_readingOnly_reads ((h _).revoked hshown id hid)

theorem shownWhileReadable_of_wellSourced {turn : Turn P} (h : turn.WellSourced P)
    (st : ReaderState) (entries : List (Entry P)) : ShownWhileReadable P st entries turn := by
  by_cases halways : turn.AlwaysShown P
  · constructor
    · intro _ id hid
      rw [h.unquoted halways] at hid
      cases hid
    · intro _ _
      exact (turn_shown_iff st entries turn).mpr (Or.inl halways)
  · constructor
    · intro hshown id hid
      obtain ⟨hloads, -⟩ := ((turn_shown_iff st entries turn).mp hshown).resolve_left halways
      obtain ⟨c, hc, rfl⟩ := List.mem_map.mp (h.cited halways id hid)
      exact reads_of_hydrates (hloads c hc)
    · intro _ hloads
      exact (turn_shown_iff st entries turn).mpr (Or.inr ⟨hloads, h.marked halways⟩)

/-- **The turns of a conversation are shown exactly while their sources are readable**, in every
state of the permissions, when each is well sourced. -/
theorem shown_while_readable_iff (P : Python) (entries : List (Entry P)) :
    (∀ st, ∀ turn, .reply turn ∈ entries → ShownWhileReadable P st entries turn) ↔
      ∀ turn, .reply turn ∈ entries → turn.WellSourced P := by
  constructor
  · intro h turn hturn
    exact wellSourced_of_shownWhileReadable fun st => h st turn hturn
  · intro h st turn hturn
    exact shownWhileReadable_of_wellSourced (h turn hturn) st entries

def leaveRow : ContextRow where
  source := 1
  articleId := 1
  chunkId := 1
  childChunkIds := [1]
  parentChunkId := none
  score := 1
  title := "Leave".toList
  lesson := false
  heading := none
  sectionRef := none
  pageNumber := none
  pageEvidence := []
  lastReviewed := none
  ownerEmail := none
  contextText := "Leave is paid.".toList

def refusalTurn : Turn asciiPython :=
  .answered plainSettings .en
    { rows := [leaveRow]
      citable := fun row hrow => by
        rw [List.mem_singleton.mp hrow]
        exact ⟨by decide, by decide, by decide +kernel⟩ }
    [] [] refusalOutput []

/-- A refusal goes on showing the passage under it when no passage can be read. -/
theorem revoked_passage_shown :
    ¬ ∀ (P : Python) (st : ReaderState) (entries : List (Entry P)) (turn : Turn P),
      .reply turn ∈ entries → ShownWhileReadable P st entries turn := by
  intro h
  have huncited : (refusalTurn.result asciiPython).citations = [] :=
    List.isEmpty_iff.mp (by decide +kernel)
  have hquoted : 1 ∈ refusalTurn.quoted asciiPython := by decide +kernel
  have hshown := (turn_shown_iff (readingOnly []) [.reply refusalTurn] refusalTurn).mpr
    (Or.inl (Or.inl huncited))
  have hread := (h asciiPython (readingOnly []) [.reply refusalTurn] refusalTurn
    List.mem_cons_self).revoked hshown 1 hquoted
  cases mem_of_readingOnly_reads hread

end QnscKb.Ask
