import QnscKb.Review.Conflicts

/-!
# Review — Conflicts on record

What a detection owes the table: a contradiction between two articles is on record under its label
(or one that means the same), and a pair of articles whose topic a reviewer has settled is not
opened again.

The loops over labelled facts skip a label that has an open record, whatever articles it names; the
model's loop looks only at records of the same set of articles.
-/

namespace QnscKb.Review
open QnscKb.Access QnscKb.Ask QnscKb.Runs

variable (U : Unicode) (casefold : Text → Text)

/-! ### The property -/

/-- A record of the label names both articles. -/
def Covered (table : Table) (company : String) (fact : Text) (a b : Id) : Prop :=
  ∃ r ∈ table, r.companyDomain = company ∧ r.fact = fact ∧ a ∈ r.articleIds ∧ b ∈ r.articleIds

/-- A record of the topic names both articles. -/
def CoveredTopic (table : Table) (company : String) (topic : Text) (a b : Id) : Prop :=
  ∃ r ∈ table, r.companyDomain = company ∧ sameTopic U casefold r.fact topic = true ∧
    a ∈ r.articleIds ∧ b ∈ r.articleIds

/-- A reviewer has settled the topic for two of the articles, and not reopened it. -/
def Settled (table : Table) (company : String) (topic : Text) (ids : List Id) : Prop :=
  ∃ r ∈ table, r.companyDomain = company ∧ r.status = .resolved ∧
    sameTopic U casefold r.fact topic = true ∧
    ∃ a ∈ ids, ∃ b ∈ ids, a ≠ b ∧ a ∈ r.articleIds ∧ b ∈ r.articleIds

/-- The articles with different values of a fact. -/
def Differ (c : Conflict) (a b : Id) : Prop :=
  ∃ e ∈ c.entries, ∃ e' ∈ c.entries,
    e.value ≠ e'.value ∧ e.source.articleId = a ∧ e'.source.articleId = b

instance (c : Conflict) (a b : Id) : Decidable (Differ c a b) :=
  inferInstanceAs (Decidable (∃ e ∈ c.entries, ∃ e' ∈ c.entries,
    e.value ≠ e'.value ∧ e.source.articleId = a ∧ e'.source.articleId = b))

/-- The contradictions of labelled facts are on record under their labels. -/
def RecordedFacts (table : Table) (company : String) (conflicts : List Conflict) : Prop :=
  ∀ c ∈ conflicts, ∀ a b, Differ c a b → Covered table company c.fact.text a b

/-- The contradictions that the model found are on record. -/
def RecordedTopics (table : Table) (company : String) (compared : Option Comparison) : Prop :=
  ∀ found ∈ compared, ∀ item ∈ found.found, found.article ≠ item.other →
    CoveredTopic U casefold table company item.fact found.article item.other

/-- Every contradiction of a detection is on record. -/
def Recorded (table : Table) : ConflictEvent → Prop
  | .answer company results => RecordedFacts table company (detectExplicitConflicts U results)
  | .draft company results compared =>
    RecordedFacts table company (detectExplicitConflicts U results) ∧
      RecordedTopics U casefold table company compared
  | .resolve .. | .reopen .. => True

/-- No record that the event appends is of a settled topic. -/
def NotReopened (s t : Table) : Prop :=
  ∀ r ∈ t.drop s.length, ¬ Settled U casefold s r.companyDomain r.fact r.articleIds

/-- What a detection owes the table. -/
def OnRecord (s : Table) (e : ConflictEvent) : Prop :=
  ∀ t ∈ afterEvent U casefold s e, Recorded U casefold t e ∧ NotReopened U casefold s t

/-- A topic of the model, of both articles and new to the table, reads as the label does. -/
def SameLabel (table : Table) (company : String) (compared : Option Comparison) (label : Text)
    (a b : Id) : Prop :=
  ∃ found ∈ compared, ∃ item ∈ found.found, newTopic U casefold table company found item = true ∧
    item.fact = label ∧ a ∈ [found.article, item.other] ∧ b ∈ [found.article, item.other]

/-- The loop over labelled facts does right: where the label has an open record, every contradiction
is on record, or the model finds it under that label; where it has none, no reviewer has settled it.
-/
def LabelRecordable (table : Table) (company : String) (compared : Option Comparison)
    (c : Conflict) : Prop :=
  if hasOpen table company c.fact.text then
    ∀ a b, Differ c a b → Covered table company c.fact.text a b ∨
      SameLabel U casefold table company compared c.fact.text a b
  else ¬ Settled U casefold table company c.fact.text (conflictArticles c)

/-- The model's loop does right: the topic is known, or no reviewer has settled it. -/
def TopicRecordable (table : Table) (company : String) (found : Comparison) (item : LlmConflict) :
    Prop :=
  found.article ≠ item.other →
    known U casefold table company (sortedIds [found.article, item.other]) item.fact = true ∨
      ¬ Settled U casefold table company item.fact (sortedIds [found.article, item.other])

/-- The table lets the detection do right. -/
def Recordable (table : Table) : ConflictEvent → Prop
  | .answer company results =>
    ∀ c ∈ detectExplicitConflicts U results, LabelRecordable U casefold table company none c
  | .draft company results compared =>
    (∀ c ∈ detectExplicitConflicts U results,
        LabelRecordable U casefold table company compared c) ∧
      ∀ found ∈ compared, ∀ item ∈ found.found, TopicRecordable U casefold table company found item
  | .resolve .. | .reopen .. => True

/-! ### Labelled facts -/

theorem firstByArticle_nodup (entries : List FactEntry) :
    ((firstByArticle entries).map fun e => e.source.articleId).Nodup := by
  have hfold : ∀ seen : List FactEntry, (seen.map fun e => e.source.articleId).Nodup →
      ((entries.foldl (fun seen entry =>
        if seen.any fun e => e.source.articleId == entry.source.articleId then seen
        else seen ++ [entry]) seen).map fun e => e.source.articleId).Nodup := by
    induction entries with
    | nil => exact fun seen h => h
    | cons entry entries ih =>
      intro seen hseen
      refine ih _ ?_
      beta_reduce
      split
      · exact hseen
      · rename_i hnew
        rw [List.map_append, List.nodup_append]
        refine ⟨hseen, List.nodup_singleton _, fun a ha b hb hab => hnew ?_⟩
        obtain ⟨e, he, rfl⟩ := List.mem_map.mp ha
        obtain rfl := List.mem_singleton.mp hb
        exact List.any_eq_true.mpr ⟨e, he, beq_iff_eq.mpr hab⟩
  exact hfold [] List.nodup_nil

theorem two_le_conflictArticles (results : List ContextRow) :
    ∀ c ∈ detectExplicitConflicts U results, 2 ≤ (conflictArticles c).length := by
  intro c h
  obtain ⟨label, -, hc⟩ := List.mem_filterMap.mp h
  dsimp only at hc
  split at hc
  · rename_i hmany
    cases hc
    simp only [conflictArticles, sortedIds, List.length_insertionSort]
    rw [(firstByArticle_nodup _).dedup, List.length_map]
    exact hmany.1
  · cases hc

theorem mem_conflictArticles {c : Conflict} {a b : Id} (h : Differ c a b) :
    a ∈ conflictArticles c ∧ b ∈ conflictArticles c := by
  obtain ⟨e, he, e', he', -, rfl, rfl⟩ := h
  exact ⟨mem_sortedIds.mpr (List.mem_map_of_mem he), mem_sortedIds.mpr (List.mem_map_of_mem he')⟩

section Labels

variable {U casefold}
variable {table : Table} {company : String} {compared : Option Comparison}
  {conflicts : List Conflict} {record : Conflict → ConflictRecord}

/-- The records the model's loop adds. -/
def topicRecords (U : Unicode) (casefold : Text → Text) (table : Table) (company : String)
    (compared : Option Comparison) : Table :=
  compared.elim [] (recordLlmConflicts U casefold table company)

theorem mem_recordExplicit (hmany : ∀ c ∈ conflicts, 2 ≤ (conflictArticles c).length)
    {r : ConflictRecord} :
    r ∈ recordExplicit table company conflicts record ↔
      ∃ c ∈ conflicts, hasOpen table company c.fact.text = false ∧ record c = r := by
  simp only [recordExplicit, List.mem_map, List.mem_filter, Bool.and_eq_true, decide_eq_true_eq,
    Bool.not_eq_true', and_assoc]
  constructor
  · rintro ⟨c, hc, -, hopen, rfl⟩
    exact ⟨c, hc, hopen, rfl⟩
  · rintro ⟨c, hc, hopen, rfl⟩
    exact ⟨c, hc, hmany c hc, hopen, rfl⟩

theorem mem_topicRecords {r : ConflictRecord} :
    r ∈ topicRecords U casefold table company compared ↔
      ∃ found ∈ compared, ∃ item ∈ found.found,
        newTopic U casefold table company found item = true ∧ llmRecord company found item = r := by
  cases compared with
  | none => simp [topicRecords]
  | some found => simp [topicRecords, recordLlmConflicts, and_assoc]

theorem newTopic_iff {found : Comparison} {item : LlmConflict} :
    newTopic U casefold table company found item = true ↔ found.article ≠ item.other ∧
      known U casefold table company (sortedIds [found.article, item.other]) item.fact = false := by
  have hlen : 2 ≤ (sortedIds [found.article, item.other]).length ↔ found.article ≠ item.other := by
    rw [sortedIds, List.length_insertionSort]
    by_cases heq : found.article = item.other
    · rw [heq]
      exact iff_of_false (by simp) fun h => h rfl
    · have hnodup : [found.article, item.other].Nodup := by simpa using heq
      rw [hnodup.dedup]
      exact iff_of_true le_rfl heq
  simp only [newTopic, Bool.and_eq_true, decide_eq_true_eq, Bool.not_eq_true', hlen]

/-- With an open record of the label, the loop adds nothing that names a pair under it. -/
theorem covered_iff_of_open (hmany : ∀ c ∈ conflicts, 2 ≤ (conflictArticles c).length)
    (hfact : ∀ c, (record c).fact = c.fact.text) {label : Text} {a b : Id}
    (hopen : hasOpen table company label = true) :
    Covered (table ++ (topicRecords U casefold table company compared ++
        recordExplicit table company conflicts record)) company label a b ↔
      Covered table company label a b ∨
        SameLabel U casefold table company compared label a b := by
  constructor
  · rintro ⟨r, hr, hcompany, rfl, ha, hb⟩
    rcases List.mem_append.mp hr with hr | hr
    · exact Or.inl ⟨r, hr, hcompany, rfl, ha, hb⟩
    rcases List.mem_append.mp hr with hr | hr
    · obtain ⟨found, hfound, item, hitem, hnew, rfl⟩ := mem_topicRecords.mp hr
      exact Or.inr ⟨found, hfound, item, hitem, hnew, rfl, mem_sortedIds.mp ha,
        mem_sortedIds.mp hb⟩
    · obtain ⟨c, -, hnone, rfl⟩ := (mem_recordExplicit hmany).mp hr
      rw [hfact, hnone] at hopen
      cases hopen
  · rintro (⟨r, hr, h⟩ | ⟨found, hfound, item, hitem, hnew, hlabel, ha, hb⟩)
    · exact ⟨r, List.mem_append_left _ hr, h⟩
    · exact ⟨llmRecord company found item, List.mem_append_right _ (List.mem_append_left _
          (mem_topicRecords.mpr ⟨found, hfound, item, hitem, hnew, rfl⟩)), rfl, hlabel,
        mem_sortedIds.mpr ha, mem_sortedIds.mpr hb⟩

/-- Without one, the record it adds names every pair. -/
theorem covered_of_none (hmany : ∀ c ∈ conflicts, 2 ≤ (conflictArticles c).length)
    (hcompany : ∀ c, (record c).companyDomain = company)
    (hfact : ∀ c, (record c).fact = c.fact.text)
    (hids : ∀ c, (record c).articleIds = conflictArticles c) {c : Conflict} (hc : c ∈ conflicts)
    (hopen : hasOpen table company c.fact.text = false) {a b : Id} (hab : Differ c a b) :
    Covered (table ++ (topicRecords U casefold table company compared ++
      recordExplicit table company conflicts record)) company c.fact.text a b := by
  obtain ⟨ha, hb⟩ := mem_conflictArticles hab
  have hmem : record c ∈ recordExplicit table company conflicts record :=
    (mem_recordExplicit hmany).mpr ⟨c, hc, hopen, rfl⟩
  exact ⟨record c, List.mem_append_right _ (List.mem_append_right _ hmem), hcompany c, hfact c,
    hids c ▸ ha, hids c ▸ hb⟩

variable (U casefold table company compared record) in
/-- **The loop over labelled facts**, next to the records of the model's loop. -/
theorem labels_iff (hmany : ∀ c ∈ conflicts, 2 ≤ (conflictArticles c).length)
    (hcompany : ∀ c, (record c).companyDomain = company)
    (hfact : ∀ c, (record c).fact = c.fact.text)
    (hids : ∀ c, (record c).articleIds = conflictArticles c) :
    (RecordedFacts (table ++ (topicRecords U casefold table company compared ++
          recordExplicit table company conflicts record)) company conflicts ∧
        ∀ r ∈ recordExplicit table company conflicts record,
          ¬ Settled U casefold table r.companyDomain r.fact r.articleIds) ↔
      ∀ c ∈ conflicts, LabelRecordable U casefold table company compared c := by
  have hnew : (∀ r ∈ recordExplicit table company conflicts record,
        ¬ Settled U casefold table r.companyDomain r.fact r.articleIds) ↔
      ∀ c ∈ conflicts, hasOpen table company c.fact.text = false →
        ¬ Settled U casefold table company c.fact.text (conflictArticles c) := by
    constructor
    · intro h c hc hopen
      have hc := h (record c) ((mem_recordExplicit hmany).mpr ⟨c, hc, hopen, rfl⟩)
      rwa [hcompany, hfact, hids] at hc
    · rintro h r hr
      obtain ⟨c, hc, hopen, rfl⟩ := (mem_recordExplicit hmany).mp hr
      rw [hcompany, hfact, hids]
      exact h c hc hopen
  rw [hnew, RecordedFacts, ← forall₂_and]
  refine forall₂_congr fun c hc => ?_
  unfold LabelRecordable
  cases hopen : hasOpen table company c.fact.text with
  | true =>
    -- the loop opens nothing under a label that is open, whatever its articles
    rw [and_iff_left fun h : true = false => absurd h.symm Bool.false_ne_true]
    exact forall₂_congr fun a b => imp_congr_right fun _ => covered_iff_of_open hmany hfact hopen
  | false =>
    rw [forall_prop_of_true rfl]
    exact and_iff_right fun a b hab => covered_of_none hmany hcompany hfact hids hc hopen hab

end Labels

/-! ### The model's topics -/

section Topics

variable {U casefold}
variable {table : Table} {company : String} {compared : Option Comparison}

theorem mem_of_known {ids : List Id} {topic : Text}
    (h : known U casefold table company ids topic = true) {a b : Id} (ha : a ∈ ids) (hb : b ∈ ids) :
    CoveredTopic U casefold table company topic a b := by
  obtain ⟨r, hr, hmatch⟩ := List.any_eq_true.mp h
  simp only [Bool.and_eq_true, beq_iff_eq] at hmatch
  obtain ⟨⟨hcompany, hids⟩, htopic⟩ := hmatch
  have hmem : ∀ id ∈ ids, id ∈ r.articleIds := by
    intro id hid
    rw [← hids] at hid
    exact (List.mem_insertionSort _).mp hid
  exact ⟨r, hr, hcompany, htopic, hmem a ha, hmem b hb⟩

/-- Every topic of the model is on record after its loop. -/
theorem recordedTopics (rest : Table) :
    RecordedTopics U casefold (table ++ (topicRecords U casefold table company compared ++ rest))
      company compared := by
  intro found hfound item hitem hne
  have harticle : found.article ∈ sortedIds [found.article, item.other] :=
    mem_sortedIds.mpr (by simp)
  have hother : item.other ∈ sortedIds [found.article, item.other] := mem_sortedIds.mpr (by simp)
  cases hknown :
    known U casefold table company (sortedIds [found.article, item.other]) item.fact with
  | true =>
    -- a record of these two articles stands, open or resolved
    obtain ⟨r, hr, h⟩ := mem_of_known hknown harticle hother
    exact ⟨r, List.mem_append_left _ hr, h⟩
  | false =>
    have hmem : llmRecord company found item ∈ topicRecords U casefold table company compared :=
      mem_topicRecords.mpr ⟨found, hfound, item, hitem, newTopic_iff.mpr ⟨hne, hknown⟩, rfl⟩
    exact ⟨_, List.mem_append_right _ (List.mem_append_left _ hmem), rfl,
      sameTopic_self U casefold item.fact, harticle, hother⟩

/-- **The model's loop** opens no settled topic exactly where each of its topics is recordable. -/
theorem topics_iff :
    (∀ r ∈ topicRecords U casefold table company compared,
        ¬ Settled U casefold table r.companyDomain r.fact r.articleIds) ↔
      ∀ found ∈ compared, ∀ item ∈ found.found,
        TopicRecordable U casefold table company found item := by
  constructor
  · intro h found hfound item hitem hne
    cases hknown :
      known U casefold table company (sortedIds [found.article, item.other]) item.fact with
    | true => exact Or.inl rfl
    | false =>
      exact Or.inr (h _ (mem_topicRecords.mpr
        ⟨found, hfound, item, hitem, newTopic_iff.mpr ⟨hne, hknown⟩, rfl⟩))
  · intro h r hr
    obtain ⟨found, hfound, item, hitem, hnew, rfl⟩ := mem_topicRecords.mp hr
    obtain ⟨hne, hknown⟩ := newTopic_iff.mp hnew
    rcases h found hfound item hitem hne with h | h
    · rw [hknown] at h
      cases h
    · exact h

end Topics

/-! ### One step -/

variable {U casefold}

variable {s t : Table}

theorem notReopened_of_length (h : t.length = s.length) : NotReopened U casefold s t := by
  intro r hr
  rw [← h, List.drop_length] at hr
  cases hr

theorem decided_length {table : Table} {i : Nat}
    {f : ConflictRecord → Except Refusal ConflictRecord} (h : decided table i f = some t) :
    t.length = table.length := by
  unfold decided at h
  split at h
  · cases h
  · split at h
    · cases h
    · cases h
      exact List.length_set

/-- **One detection**: it pays its debts exactly when the table is as it has to be. -/
theorem onRecord_iff (s : Table) (e : ConflictEvent) :
    OnRecord U casefold s e ↔ Recordable U casefold s e := by
  cases e with
  | answer company results =>
    have hlabels := labels_iff U casefold s company none
      (fun c => explicitRecord company c none fun _ => none)
      (two_le_conflictArticles U results) (fun _ => rfl) (fun _ => rfl) (fun _ => rfl)
    simp only [OnRecord, afterEvent, Option.mem_some_iff, forall_eq', Recorded, NotReopened,
      List.drop_left]
    exact hlabels
  | draft company results compared =>
    have hlabels := labels_iff U casefold s company compared
      (fun c => explicitRecord company c (some (classifyFactType c.fact))
          fun entry => some entry.source.title)
      (two_le_conflictArticles U results) (fun _ => rfl) (fun _ => rfl) (fun _ => rfl)
    simp only [OnRecord, afterEvent, Option.mem_some_iff, forall_eq', Recorded, Recordable,
      NotReopened, List.drop_left, List.forall_mem_append]
    rw [← hlabels, ← topics_iff]
    constructor
    · rintro ⟨⟨hfacts, -⟩, htopics, hnew⟩
      exact ⟨⟨hfacts, hnew⟩, htopics⟩
    · rintro ⟨⟨hfacts, hnew⟩, htopics⟩
      exact ⟨⟨hfacts, recordedTopics _⟩, htopics, hnew⟩
  | resolve i u keep note =>
    exact iff_of_true (fun t ht => ⟨trivial, notReopened_of_length (decided_length ht)⟩) trivial
  | reopen i u =>
    exact iff_of_true (fun t ht => ⟨trivial, notReopened_of_length (decided_length ht)⟩) trivial

/-! ### Whole runs -/

/-- Every record of the one table is in the other, with its label and articles. -/
def Grows (s t : Table) : Prop :=
  ∀ r ∈ s, ∃ r' ∈ t, r'.companyDomain = r.companyDomain ∧ r'.fact = r.fact ∧
    r'.articleIds = r.articleIds

theorem Grows.of_subset (h : ∀ r ∈ s, r ∈ t) : Grows s t :=
  fun r hr => ⟨r, h r hr, rfl, rfl, rfl⟩

theorem decided_grows {table : Table} {i : Nat} {f : ConflictRecord → Except Refusal ConflictRecord}
    (hf : ∀ r r', f r = .ok r' →
      r'.companyDomain = r.companyDomain ∧ r'.fact = r.fact ∧ r'.articleIds = r.articleIds)
    (h : decided table i f = some t) : Grows table t := by
  unfold decided at h
  split at h
  · cases h
  rename_i old hold
  split at h
  · cases h
  rename_i new hnew
  cases h
  intro r hr
  obtain ⟨j, hj⟩ := List.mem_iff_getElem?.mp hr
  by_cases hij : i = j
  · subst hij
    obtain rfl := Option.some.inj (hold.symm.trans hj)
    exact ⟨new, List.mem_set (List.getElem?_eq_some_iff.mp hj).1 new, hf _ _ hnew⟩
  · refine ⟨r, List.mem_iff_getElem?.mpr ⟨j, ?_⟩, rfl, rfl, rfl⟩
    rw [List.getElem?_set_ne hij]
    exact hj

theorem resolveConflict_keeps {u : User} {r r' : ConflictRecord} {keep : Option Id} {note : String}
    (h : resolveConflict u r keep note = .ok r') :
    r'.companyDomain = r.companyDomain ∧ r'.fact = r.fact ∧ r'.articleIds = r.articleIds := by
  simp only [resolveConflict] at h
  generalize (if strip note = "" then "Decided which article is right" else strip note) = written
    at h
  split at h
  · cases h
  · split at h
    · split at h
      · cases h
      · split at h
        · cases h
        · cases h
          exact ⟨rfl, rfl, rfl⟩
    · split at h
      · cases h
      · cases h
        exact ⟨rfl, rfl, rfl⟩

theorem reopenConflict_keeps {u : User} {r r' : ConflictRecord}
    (h : reopenConflict u r = .ok r') :
    r'.companyDomain = r.companyDomain ∧ r'.fact = r.fact ∧ r'.articleIds = r.articleIds := by
  unfold reopenConflict at h
  split at h
  · cases h
  · split at h
    · cases h
    · cases h
      exact ⟨rfl, rfl, rfl⟩

theorem step_grows {e : ConflictEvent} (h : ConflictStep U casefold s e t) : Grows s t := by
  rw [conflictStep_iff] at h
  cases e with
  | answer company results =>
    obtain rfl := Option.some.inj h
    exact .of_subset fun r hr => List.mem_append_left _ hr
  | draft company results compared =>
    obtain rfl := Option.some.inj h
    exact .of_subset fun r hr => List.mem_append_left _ hr
  | resolve i u keep note => exact decided_grows (fun _ _ => resolveConflict_keeps) h
  | reopen i u => exact decided_grows (fun _ _ => reopenConflict_keeps) h

theorem Recorded.grow (hgrows : Grows s t) {e : ConflictEvent} (h : Recorded U casefold s e) :
    Recorded U casefold t e := by
  have hfacts : ∀ company conflicts, RecordedFacts s company conflicts →
      RecordedFacts t company conflicts := by
    intro company conflicts h c hc a b hab
    obtain ⟨r, hr, hcompany, hfact, ha, hb⟩ := h c hc a b hab
    obtain ⟨r', hr', hcompany', hfact', hids⟩ := hgrows r hr
    exact ⟨r', hr', hcompany'.trans hcompany, hfact'.trans hfact, hids ▸ ha, hids ▸ hb⟩
  cases e with
  | answer company results => exact hfacts _ _ h
  | draft company results compared =>
    refine ⟨hfacts _ _ h.1, fun found hfound item hitem hne => ?_⟩
    obtain ⟨r, hr, hcompany, htopic, ha, hb⟩ := h.2 found hfound item hitem hne
    obtain ⟨r', hr', hcompany', hfact, hids⟩ := hgrows r hr
    exact ⟨r', hr', hcompany'.trans hcompany, hfact.symm ▸ htopic, hids ▸ ha, hids ▸ hb⟩
  | resolve i u keep note => trivial
  | reopen i u => trivial

/-- Every detection of the run paid its debts, and its contradiction is still on record. -/
structure Kept (U : Unicode) (casefold : Text → Text) (tr : List (Table × ConflictEvent))
    (s : Table) : Prop where
  paid : Throughout (OnRecord U casefold) tr
  still : ∀ p ∈ tr, Recorded U casefold s p.2

def EmptyTable (s : Table) : Prop := s = []

theorem recorded_of_run {tr : List (Table × ConflictEvent)}
    (r : Run EmptyTable (ConflictStep U casefold) tr s) (h : Throughout (OnRecord U casefold) tr) :
    ∀ p ∈ tr, Recorded U casefold s p.2 := by
  induction r with
  | start _ => intro p hp; cases hp
  | next r hstep ih =>
    intro p hp
    rcases List.mem_cons.mp hp with rfl | hp
    · exact (h.head _ (conflictStep_iff.mp hstep)).1
    · exact (ih h.tail p hp).grow (step_grows hstep)

/-- **Contradictions stay on record**, in exactly the runs whose detections each meet
`Recordable`. -/
theorem conflicts_kept_iff {tr : List (Table × ConflictEvent)} {s : Table}
    (r : Run EmptyTable (ConflictStep U casefold) tr s) :
    Kept U casefold tr s ↔ Throughout (Recordable U casefold) tr := by
  constructor
  · intro h p hp
    exact (onRecord_iff p.1 p.2).mp (h.paid p hp)
  · intro h
    have hpaid : Throughout (OnRecord U casefold) tr :=
      fun p hp => (onRecord_iff p.1 p.2).mpr (h p hp)
    exact ⟨hpaid, recorded_of_run r hpaid⟩

/-! ### A third article -/

def deadlinePassage (article : Id) (text : String) : ContextRow where
  source := article
  articleId := article
  chunkId := article
  childChunkIds := []
  parentChunkId := none
  score := 1
  title := []
  lesson := false
  heading := none
  sectionRef := none
  pageNumber := none
  pageEvidence := []
  lastReviewed := none
  ownerEmail := none
  contextText := text.toList

def firstDetection : ConflictEvent :=
  .answer "qnsc.vn" [deadlinePassage 1 "Deadline: 5 days", deadlinePassage 2 "Deadline: 7 days"]

def secondDetection : ConflictEvent :=
  .answer "qnsc.vn" [deadlinePassage 1 "Deadline: 5 days", deadlinePassage 3 "Deadline: 9 days"]

def firstTable : Table :=
  [{ companyDomain := "qnsc.vn"
     fact := "deadline".toList
     contradictionType := none
     articleIds := [1, 2]
     evidence := [⟨1, none, "5 days".toList⟩, ⟨2, none, "7 days".toList⟩]
     status := .unresolved
     resolvedBy := none
     resolutionNote := none
     keptArticleId := none
     detectionMethod := .pattern }]

theorem firstDetection_step : ConflictStep ascii id [] firstDetection firstTable :=
  conflictStep_iff.mpr (by decide +kernel)

theorem secondDetection_step : ConflictStep ascii id firstTable secondDetection firstTable :=
  conflictStep_iff.mpr (by decide +kernel)

theorem emptyTable_nil : EmptyTable [] := rfl

theorem conflicts_kept_iff_firstDetection :
    Kept ascii id [([], firstDetection)] firstTable ↔
      Throughout (Recordable ascii id) [([], firstDetection)] :=
  conflicts_kept_iff ((Run.start emptyTable_nil).next firstDetection_step)

/-- The deadline of the third article contradicts the first one's, and no record says so. -/
theorem second_contradiction_swallowed :
    ¬ ∀ (U : Unicode) (casefold : Text → Text) (tr : List (Table × ConflictEvent)) (s : Table),
      Run EmptyTable (ConflictStep U casefold) tr s → Kept U casefold tr s := by
  intro h
  have hkept := h ascii id _ _
    (((Run.start emptyTable_nil).next firstDetection_step).next secondDetection_step)
  have hrecorded := hkept.still (firstTable, secondDetection) List.mem_cons_self
  have hdiffer : ((detectExplicitConflicts ascii [deadlinePassage 1 "Deadline: 5 days",
      deadlinePassage 3 "Deadline: 9 days"]).any fun c => decide (Differ c 1 3)) = true := by
    decide +kernel
  obtain ⟨c, hc, hd⟩ := List.any_eq_true.mp hdiffer
  obtain ⟨r, hr, -, -, -, hthird⟩ := hrecorded c hc 1 3 (of_decide_eq_true hd)
  obtain rfl := List.mem_singleton.mp hr
  revert hthird
  decide

end QnscKb.Review
