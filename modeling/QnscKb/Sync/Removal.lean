import QnscKb.Sync.Documents

/-!
# Sync — Removal

A document is *settled*: reported deleted, none of its articles is served; reported present and
supported, with attempts left and not taken down by people, an article or an open draft holds its
content.

The tombstone takes down the one article the row points to and rejects the linked drafts.  A
document that returns is ingested as any other: where its revision or its content is the row's, no
draft is made.
-/

namespace QnscKb.Sync
open Runs SourceState

/-! ### The property -/

namespace SourceState

variable (s : SourceState)

def quarantinedAt (k : DocumentKey) (revision : Option String) : Bool :=
  (s.document k).any fun d => isQuarantined d revision

def NothingServed (k : DocumentKey) : Prop :=
  ∀ a ∈ s.articles, a.origin = k → a.served = false

instance (k : DocumentKey) : Decidable (s.NothingServed k) :=
  inferInstanceAs (Decidable (∀ a ∈ s.articles, _ → _))

/-- The document has to have an article or a draft. -/
def Expected (k : DocumentKey) (revision : Option String) : Prop :=
  s.quarantinedAt k revision = false ∧ (s.ledger k).takenDown = false

instance (k : DocumentKey) (revision : Option String) : Decidable (s.Expected k revision) :=
  inferInstanceAs (Decidable (_ ∧ _))

end SourceState

/-- The reports of a document have their effect. -/
structure SettledAt (s : SourceState) (k : DocumentKey) : Prop where
  gone : (s.ledger k).report = some .deleted → s.NothingServed k
  present : ∀ revision, (s.ledger k).report = some (.present revision true) →
    s.Expected k revision → s.alive k = true

def Settled (s : SourceState) : Prop := ∀ k, SettledAt s k

/-! ### The condition -/

namespace SourceState

variable (s : SourceState)

/-- The served articles of the document are the ones this row points to. -/
def Removable (d : ExternalDocument) : Prop :=
  ∀ a ∈ s.articles, a.served = true → (a.origin = d.key ↔ d.articleId = some a.id)

instance (d : ExternalDocument) : Decidable (s.Removable d) :=
  inferInstanceAs (Decidable (∀ a ∈ s.articles, _ → (_ ↔ _)))

/-- What is downloaded is new to the row, in its revision and its content. -/
def Renews (change : NormalizedChange) : Outcome → Prop
  | .done contentHash _ => ∀ d ∈ s.document change.key, ∀ h ∈ d.contentHash,
      d.revision ≠ change.revision ∧ h ≠ contentHash
  | _ => False

instance (change : NormalizedChange) : (o : Outcome) → Decidable (s.Renews change o)
  | .done .. => inferInstanceAs (Decidable (∀ d ∈ s.document change.key, ∀ h ∈ d.contentHash, _ ∧ _))
  | .early _ | .fails | .fatal => isFalse id

/-- What a tombstone needs: the row of the document, when the item completes, to find what is
served; nothing served otherwise. -/
def TakesDown (k : DocumentKey) : Option ExternalDocument → Bool → Prop
  | some d, true => s.Removable d
  | _, _ => s.NothingServed k

instance (k : DocumentKey) :
    (row : Option ExternalDocument) → (completes : Bool) → Decidable (s.TakesDown k row completes)
  | some d, true => inferInstanceAs (Decidable (s.Removable d))
  | some _, false | none, _ => inferInstanceAs (Decidable (s.NothingServed k))

/-- The document was not reported deleted last. -/
def NotGone (k : DocumentKey) : Prop := (s.ledger k).report ≠ some .deleted

instance (k : DocumentKey) : Decidable (s.NotGone k) := inferInstanceAs (Decidable (_ ≠ _))

end SourceState

/-- What a step has to meet: a removal finds the served articles through the row; a document that
has nothing and should have, is downloaded anew; and people neither publish what is gone nor write
one document's content over another's. -/
def Settles (s : SourceState) : SourceAction → Prop
  | .item change outcome =>
    (change.state = .deleted →
      s.TakesDown change.key (s.document change.key) outcome.completes) ∧
    (s.supports change = true → s.alive change.key = false →
      s.Expected change.key change.revision → s.Renews change outcome)
  | .endWalk => ∀ w ∈ s.walk, ∀ d ∈ s.staleDocuments w, s.Removable d
  | .approve draftId target => ∀ draft ∈ s.pendingById draftId, s.NotGone draft.origin ∧
      ∀ id ∈ target, ∀ a ∈ s.articles, a.id = id → a.origin = draft.origin
  | .setArticleStatus articleId .published | .restoreVersion articleId =>
    ∀ a ∈ s.articles, a.id = articleId → s.NotGone a.origin
  | _ => True

instance (s : SourceState) : (a : SourceAction) → Decidable (Settles s a)
  | .item .. => inferInstanceAs (Decidable ((_ → _) ∧ (_ → _ → _ → _)))
  | .endWalk => inferInstanceAs (Decidable (∀ w ∈ s.walk, ∀ d ∈ s.staleDocuments w, _))
  | .approve draftId target => inferInstanceAs (Decidable (∀ draft ∈ s.pendingById draftId,
      _ ∧ ∀ id ∈ target, ∀ a ∈ s.articles, a.id = id → a.origin = draft.origin))
  | .setArticleStatus _ .published | .restoreVersion _ =>
    inferInstanceAs (Decidable (∀ a ∈ s.articles, _ → _))
  | .beginWalk .. | .abortWalk | .reject _ | .commitCandidates .. |
    .setArticleStatus _ .unpublished | .setArticleStatus _ .deleted => isTrue trivial

/-! ### What a step leaves of a document -/

/-- Nothing that settles the document changes against it. -/
structure Undisturbed (s t : SourceState) (k : DocumentKey) : Prop where
  report : (t.ledger k).report = (s.ledger k).report
  takenDown : (t.ledger k).takenDown = (s.ledger k).takenDown
  quarantined : ∀ revision, t.quarantinedAt k revision = s.quarantinedAt k revision
  served : s.NothingServed k → t.NothingServed k
  alive : s.alive k = true → t.alive k = true

/-- What settles a document stays when nothing changes against it. -/
theorem SettledAt.undisturbed {s t : SourceState} {k : DocumentKey} (h : SettledAt s k)
    (hu : Undisturbed s t k) : SettledAt t k where
  gone hreport := hu.served (h.gone (hu.report ▸ hreport))
  present revision hreport hexpected := by
    refine hu.alive (h.present revision (hu.report ▸ hreport) ⟨?_, ?_⟩)
    · exact hu.quarantined revision ▸ hexpected.1
    · exact hu.takenDown ▸ hexpected.2

namespace Undisturbed

variable {s t u : SourceState} {k : DocumentKey}

theorem refl (s : SourceState) (k : DocumentKey) : Undisturbed s s k :=
  ⟨rfl, rfl, fun _ => rfl, id, id⟩

theorem trans (h : Undisturbed s t k) (h' : Undisturbed t u k) : Undisturbed s u k where
  report := h'.report.trans h.report
  takenDown := h'.takenDown.trans h.takenDown
  quarantined revision := (h'.quarantined revision).trans (h.quarantined revision)
  served := h'.served ∘ h.served
  alive := h'.alive ∘ h.alive

theorem grown (hdocuments : t.documents = s.documents) (hledger : t.ledger = s.ledger)
    (harticles : t.articles = s.articles) (hdrafts : ∀ d ∈ s.drafts, d ∈ t.drafts) :
    Undisturbed s t k where
  report := by rw [hledger]
  takenDown := by rw [hledger]
  quarantined revision := by simp only [quarantinedAt, document, hdocuments]
  served h := by
    unfold NothingServed
    rw [harticles]
    exact h
  alive h := by
    rw [alive_iff] at h ⊢
    rw [harticles]
    rcases h with h | ⟨d, hd, hopen⟩
    · exact Or.inl h
    · exact Or.inr ⟨d, hdrafts d hd, hopen⟩

theorem putDocument (d : ExternalDocument)
    (h : d.key = k → ∀ revision, isQuarantined d revision = s.quarantinedAt k revision) :
    Undisturbed s (s.putDocument d) k where
  report := rfl
  takenDown := rfl
  quarantined revision := by
    unfold quarantinedAt
    rw [document_putDocument]
    by_cases hk : d.key = k
    · rw [if_pos hk]
      exact h hk revision
    · rw [if_neg hk]
  served := id
  alive := id

theorem setLedger {k' : DocumentKey} {f : Ledger → Ledger}
    (h : k = k' → (f (s.ledger k)).report = (s.ledger k).report ∧
      (f (s.ledger k)).takenDown = (s.ledger k).takenDown) :
    Undisturbed s (s.setLedger k' f) k where
  report := by
    rw [setLedger_ledger]
    split
    · exact (h ‹_›).1
    · rfl
  takenDown := by
    rw [setLedger_ledger]
    split
    · exact (h ‹_›).2
    · rfl
  quarantined _ := rfl
  served := id
  alive := id

theorem setDrafts {f : SourceDraft → SourceDraft}
    (h : ∀ d ∈ s.drafts, d.origin = k → d.isOpen = true → (f d).origin = k ∧ (f d).isOpen = true) :
    Undisturbed s (s.setDrafts f) k where
  report := rfl
  takenDown := rfl
  quarantined _ := rfl
  served := id
  alive ha := by
    rw [alive_iff] at ha ⊢
    rcases ha with ha | ⟨d, hd, horigin, hopen⟩
    · exact Or.inl ha
    · exact Or.inr ⟨f d, List.mem_map_of_mem hd, h d hd horigin hopen⟩

theorem setArticles {f : SourceArticle → SourceArticle}
    (h : ∀ a ∈ s.articles, (f a).origin = k ∧ (f a).served = true ↔
      a.origin = k ∧ a.served = true) : Undisturbed s (s.setArticles f) k where
  report := rfl
  takenDown := rfl
  quarantined _ := rfl
  served hs := by
    intro b hb horigin
    obtain ⟨a, ha, rfl⟩ := List.mem_map.mp hb
    by_contra hserved
    obtain ⟨ho, hv⟩ := (h a ha).mp ⟨horigin, eq_true_of_ne_false hserved⟩
    exact absurd (hs a ha ho) (ne_false_of_eq_true hv)
  alive ha := by
    rw [alive_iff] at ha ⊢
    rcases ha with ⟨a, ha, hlive⟩ | ha
    · exact Or.inl ⟨f a, List.mem_map_of_mem ha, (h a ha).mpr hlive⟩
    · exact Or.inr ha

end Undisturbed

/-! ### A removal -/

/-- A linked draft holds the content of its document. -/
def Linked (s : SourceState) : Prop :=
  ∀ d ∈ s.drafts, ∀ k, d.externalDocument = some k → d.origin = k

section Removal

variable {s : SourceState} {d : ExternalDocument}

/-- Taking a document down disturbs no other one. -/
theorem undisturbed_removal (hlinked : Linked s) (hd : s.Removable d) {k : DocumentKey}
    (hk : d.key ≠ k) : Undisturbed s (s.handleDeletedDocument d) k := by
  have hput : Undisturbed s (s.putDocument { d with state := .deleted }) k :=
    .putDocument _ fun h => absurd h hk
  unfold handleDeletedDocument
  refine ((hput.trans (.setDrafts ?_)).trans (.setArticles ?_)).trans (.setLedger ?_)
  · intro draft hdraft horigin hopen
    have hother : draft.externalDocument ≠ some d.key := fun h =>
      hk ((hlinked draft hdraft _ h).symm.trans horigin)
    rw [if_neg fun h => hother h.1]
    exact ⟨horigin, hopen⟩
  · intro a ha
    by_cases hid : d.articleId = some a.id
    · have hnot : ¬ (a.origin = k ∧ a.served = true) := fun h =>
      hk (((hd a ha h.2).mpr hid).symm.trans h.1)
      simp [hid, SourceArticle.served] at hnot ⊢
      exact hnot
    · simp only [if_neg hid]
  · exact fun h => absurd h.symm hk

theorem report_removal : ((s.handleDeletedDocument d).ledger d.key).report = some .deleted := by
  simp [handleDeletedDocument, setLedger_ledger]

/-- A document that is taken down through its row is settled. -/
theorem settledAt_removal (hd : s.Removable d) :
    SettledAt (s.handleDeletedDocument d) d.key where
  gone _ := by
    intro b hb horigin
    obtain ⟨a, ha, rfl⟩ := List.mem_map.mp hb
    by_cases hid : d.articleId = some a.id
    · simp [hid, SourceArticle.served]
    · simp only [if_neg hid] at horigin ⊢
      by_contra hserved
      exact hid ((hd a ha (eq_true_of_ne_false hserved)).mp horigin)
  present revision h := by
    rw [report_removal] at h
    cases h

/-- Taking a document down keeps the drafts linked. -/
theorem linked_removal (h : Linked s) : Linked (s.handleDeletedDocument d) := by
  intro b hb k hk
  obtain ⟨a, ha, rfl⟩ := List.mem_map.mp hb
  by_cases hlink : a.externalDocument = some d.key ∧ a.isOpen = true
  · rw [if_pos hlink] at hk ⊢
    exact h a ha k hk
  · rw [if_neg hlink] at hk ⊢
    exact h a ha k hk

/-- What could be found through its row still can. -/
theorem removable_removal {b : ExternalDocument} (h : s.Removable b) :
    (s.handleDeletedDocument d).Removable b := by
  intro a' ha' hserved
  obtain ⟨a, ha, rfl⟩ := List.mem_map.mp ha'
  split at hserved
  · simp [SourceArticle.served] at hserved
  · rename_i hid
    rw [if_neg hid]
    exact h a ha hserved

/-- **The sweep** of removable rows. -/
theorem settled_sweep (documents : List ExternalDocument) (h : Settled s) (hlinked : Linked s)
    (hd : ∀ d ∈ documents, s.Removable d) :
    Settled (documents.foldl handleDeletedDocument s) := by
  induction documents generalizing s with
  | nil => exact h
  | cons d documents ih =>
    have hrow := hd d List.mem_cons_self
    refine ih (fun k => ?_) (linked_removal hlinked) fun b hb =>
      removable_removal (hd b (List.mem_cons_of_mem d hb))
    by_cases hk : d.key = k
    · exact hk ▸ settledAt_removal hrow
    · exact (h k).undisturbed (undisturbed_removal hlinked hrow hk)

end Removal

/-! ### A report that removes nothing -/

/-- Nothing is taken from any document, and only one is reported on. -/
structure Within (k : DocumentKey) (s t : SourceState) : Prop where
  articles : t.articles = s.articles
  drafts : ∀ d ∈ s.drafts, ∃ d' ∈ t.drafts, d'.origin = d.origin ∧ d'.isOpen = d.isOpen
  document : ∀ k', k' ≠ k → t.document k' = s.document k'
  ledger : ∀ k', k' ≠ k → t.ledger k' = s.ledger k'

namespace Within

variable {s t u : SourceState} {k : DocumentKey}

theorem refl (k : DocumentKey) (s : SourceState) : Within k s s :=
  ⟨rfl, fun d hd => ⟨d, hd, rfl, rfl⟩, fun _ _ => rfl, fun _ _ => rfl⟩

theorem trans (h : Within k s t) (h' : Within k t u) : Within k s u where
  articles := h'.articles.trans h.articles
  drafts d hd := by
    obtain ⟨d', hd', horigin, hopen⟩ := h.drafts d hd
    obtain ⟨d'', hd'', horigin', hopen'⟩ := h'.drafts d' hd'
    exact ⟨d'', hd'', horigin'.trans horigin, hopen'.trans hopen⟩
  document k' hk' := (h'.document k' hk').trans (h.document k' hk')
  ledger k' hk' := (h'.ledger k' hk').trans (h.ledger k' hk')

theorem alive (h : Within k s t) {k' : DocumentKey} (ha : s.alive k' = true) :
    t.alive k' = true := by
  rw [alive_iff] at ha ⊢
  rw [h.articles]
  rcases ha with ha | ⟨d, hd, horigin, hopen⟩
  · exact Or.inl ha
  · obtain ⟨d', hd', horigin', hopen'⟩ := h.drafts d hd
    exact Or.inr ⟨d', hd', horigin'.trans horigin, hopen'.trans hopen⟩

theorem undisturbed (h : Within k s t) {k' : DocumentKey} (hk : k' ≠ k) : Undisturbed s t k' where
  report := by rw [h.ledger k' hk]
  takenDown := by rw [h.ledger k' hk]
  quarantined revision := by simp only [quarantinedAt, h.document k' hk]
  served hs := by
    unfold NothingServed
    rw [h.articles]
    exact hs
  alive := h.alive

theorem putDocument (h : Within k s t) {d : ExternalDocument} (hd : d.key = k) :
    Within k s (t.putDocument d) where
  articles := h.articles
  drafts := h.drafts
  document k' hk' := by
    rw [document_putDocument, hd, if_neg (Ne.symm hk')]
    exact h.document k' hk'
  ledger := h.ledger

theorem setLedger (k : DocumentKey) (f : Ledger → Ledger) : Within k s (s.setLedger k f) where
  articles := rfl
  drafts d hd := ⟨d, hd, rfl, rfl⟩
  document _ _ := rfl
  ledger k' hk' := by rw [setLedger_ledger, if_neg hk']

theorem replaceSplitCandidates (k : DocumentKey) (draftId : Nat) (candidates : Bool) :
    Within k s (s.replaceSplitCandidates draftId candidates) where
  articles := rfl
  drafts d hd := by
    refine ⟨_, List.mem_map_of_mem hd, ?_⟩
    split <;> exact ⟨rfl, rfl⟩
  document _ _ := rfl
  ledger _ _ := rfl

theorem draftContent (d : ExternalDocument) (candidates : Bool) :
    Within d.key s (s.draftContent d candidates) := by
  unfold SourceState.draftContent
  split
  · exact ⟨rfl, fun b hb => ⟨b, List.mem_append_left _ hb, rfl, rfl⟩, fun _ _ => rfl,
      fun _ hk' => if_neg hk'⟩
  · exact replaceSplitCandidates d.key _ _

theorem ingestContent (d : ExternalDocument) (change : NormalizedChange) (contentHash : String)
    (candidates : Bool) : Within d.key s (s.ingestContent d change contentHash candidates) := by
  unfold SourceState.ingestContent
  split
  · split
    · split
      · exact refl _ _
      · exact replaceSplitCandidates d.key _ _
    · exact refl _ _
  · have hput : Within d.key s (s.putDocument (d.holding change contentHash)) :=
      (refl d.key s).putDocument rfl
    exact hput.trans (draftContent (d.holding change contentHash) candidates)

theorem clearIngestFailure (k : DocumentKey) : Within k s (s.clearIngestFailure k) := by
  unfold SourceState.clearIngestFailure
  split
  · rename_i d hd
    have hkey := key_of_document s hd
    exact (refl k s).putDocument hkey
  · exact refl _ _

theorem meet (w : Walk) (change : NormalizedChange) : Within change.key s (s.meet w change) :=
  ⟨rfl, fun d hd => ⟨d, hd, rfl, rfl⟩, fun _ _ => rfl, fun _ hk' => if_neg hk'⟩

theorem recordItemFailure (change : NormalizedChange) :
    Within change.key s (s.recordItemFailure change) := by
  unfold SourceState.recordItemFailure
  split
  · exact setLedger _ _
  · rename_i d hd
    have hkey := key_of_document s hd
    exact (setLedger change.key _).putDocument hkey

theorem finishItem {d : ExternalDocument} {change : NormalizedChange} (hd : d.key = change.key)
    (hstate : change.state = .active) (tried : Bool) (contentHash : String) (candidates : Bool) :
    Within change.key s (s.finishItem tried d change contentHash candidates) := by
  unfold SourceState.finishItem
  simp only [hstate]
  split
  · rw [← hd]
    exact ((ingestContent d change contentHash candidates).trans (clearIngestFailure d.key)).trans
      (setLedger d.key _)
  · exact refl _ _

theorem processItem (w : Walk) {change : NormalizedChange} {outcome : Outcome}
    (h : change.state = .active ∨ outcome.completes = false) :
    Within change.key s (s.processItem w change outcome) := by
  have hmeet : Within change.key s (s.meet w change) := meet w change
  unfold SourceState.processItem
  dsimp only
  split
  · exact hmeet
  have hput : Within change.key s ((s.meet w change).putDocument
      (upsertDocument w.scopeId (s.document change.key) change)) := hmeet.putDocument rfl
  cases outcome with
  | early fatal =>
    cases fatal with
    | true => exact ⟨hmeet.articles, hmeet.drafts, hmeet.document, hmeet.ledger⟩
    | false => exact hmeet.trans (recordItemFailure change)
  | fails => exact hput.trans (recordItemFailure change)
  | fatal => exact ⟨hput.articles, hput.drafts, hput.document, hput.ledger⟩
  | done contentHash candidates =>
    rcases h with hstate | hfails
    · exact hput.trans (finishItem rfl hstate _ contentHash candidates)
    · cases hfails

end Within

/-! ### A download -/

section Download

variable {s : SourceState}

/-- A version that is drafted holds the document's content. -/
theorem alive_draftContent (hlinked : Linked s) (d : ExternalDocument) (candidates : Bool) :
    (s.draftContent d candidates).alive d.key = true := by
  rw [alive_iff]
  refine Or.inr ?_
  unfold draftContent
  cases hp : s.pendingDraft d.key with
  | none => exact ⟨_, List.mem_append_right _ (List.mem_singleton_self _), rfl, rfl⟩
  | some draft =>
    have hmem := List.mem_of_find?_eq_some hp
    have hpending := List.find?_some hp
    simp only [Bool.and_eq_true, beq_iff_eq] at hpending
    refine ⟨{ draft with candidates := candidates }, List.mem_map.mpr ⟨draft, hmem, by simp⟩,
      hlinked draft hmem _ hpending.1, ?_⟩
    simp [SourceDraft.isOpen, hpending.2]

variable {change : NormalizedChange}

/-- What is downloaded anew holds the document's content. -/
theorem alive_ingestContent (hlinked : Linked s) {d : ExternalDocument} {contentHash : String}
    (hnew : ¬ (d.contentHash = some contentHash ∧ d.revision = change.revision))
    (candidates : Bool) : (s.ingestContent d change contentHash candidates).alive d.key = true := by
  unfold ingestContent
  rw [if_neg (by simpa using hnew)]
  exact alive_draftContent (s := s.putDocument (d.holding change contentHash)) hlinked
    (d.holding change contentHash) candidates

/-- An ingest leaves the content held, or changes nothing. -/
theorem ledger_ingestContent (hlinked : Linked s) (d : ExternalDocument)
    (change : NormalizedChange) (contentHash : String) (candidates : Bool) :
    (s.ingestContent d change contentHash candidates).alive d.key = true ∨
      (s.ingestContent d change contentHash candidates).ledger = s.ledger := by
  by_cases hnew : d.contentHash = some contentHash ∧ d.revision = change.revision
  · refine Or.inr ?_
    unfold ingestContent
    rw [if_pos (by simp [hnew])]
    split
    · split <;> rfl
    · rfl
  · exact Or.inl (alive_ingestContent hlinked hnew candidates)

@[simp] theorem alive_clearIngestFailure (k k' : DocumentKey) :
    (s.clearIngestFailure k).alive k' = s.alive k' := by
  unfold clearIngestFailure
  split <;> rfl

@[simp] theorem alive_setLedger (k k' : DocumentKey) (f : Ledger → Ledger) :
    (s.setLedger k f).alive k' = s.alive k' := rfl

@[simp] theorem alive_putDocument (d : ExternalDocument) (k : DocumentKey) :
    (s.putDocument d).alive k = s.alive k := rfl

@[simp] theorem takenDown_meet (w : Walk) (change : NormalizedChange) (k : DocumentKey) :
    ((s.meet w change).ledger k).takenDown = (s.ledger k).takenDown := by
  simp only [meet, enter, setLedger_ledger]
  split
  · cases change.state <;> rfl
  · rfl

theorem report_meet_active (w : Walk) (h : change.state = .active) :
    ((s.meet w change).ledger change.key).report =
      some (.present change.revision (s.supports change)) := by
  simp only [meet, enter, setLedger_ledger, h]
  rfl

theorem report_meet_deleted (w : Walk) (h : change.state = .deleted) :
    ((s.meet w change).ledger change.key).report = some .deleted := by
  simp only [meet, enter, setLedger_ledger, h]
  rfl

theorem report_recordItemFailure (change : NormalizedChange) (k : DocumentKey) :
    ((s.recordItemFailure change).ledger k).report = (s.ledger k).report := by
  unfold recordItemFailure
  split <;> simp only [putDocument_ledger, setLedger_ledger] <;> split <;> rfl

@[simp] theorem takenDown_recordItemFailure (change : NormalizedChange) (k : DocumentKey) :
    ((s.recordItemFailure change).ledger k).takenDown = (s.ledger k).takenDown := by
  unfold recordItemFailure
  split <;> simp only [putDocument_ledger, setLedger_ledger] <;> split <;> rfl

@[simp] theorem quarantinedAt_putDocument_upsert (scopeId : Nat) (change : NormalizedChange)
    (revision : Option String) :
    (s.putDocument (upsertDocument scopeId (s.document change.key) change)).quarantinedAt change.key
      revision = s.quarantinedAt change.key revision := by
  unfold quarantinedAt
  rw [document_putDocument, upsertDocument_key, if_pos rfl]
  cases s.document change.key <;> rfl

theorem quarantinedAt_recordItemFailure (h : s.quarantinedAt change.key change.revision = true) :
    (s.recordItemFailure change).quarantinedAt change.key change.revision = true := by
  obtain ⟨d, hd, hq⟩ := (Option.any_eq_true _ _).mp h
  have hkey := key_of_document s hd
  obtain ⟨failure, hfailure, hq⟩ := (Option.any_eq_true _ _).mp hq
  simp only [Bool.and_eq_true, beq_iff_eq, decide_eq_true_eq] at hq
  unfold quarantinedAt recordItemFailure
  simp only [hd]
  rw [document_putDocument, if_pos hkey]
  simp [isQuarantined, attemptsAfter, hfailure, hq.1]
  omega

theorem report_ingestContent (d : ExternalDocument) (change : NormalizedChange)
    (contentHash : String) (candidates : Bool) (k : DocumentKey) :
    ((s.ingestContent d change contentHash candidates).ledger k).report =
      (s.ledger k).report := by
  unfold ingestContent
  split
  · split
    · split <;> rfl
    · rfl
  · dsimp only
    rcases draftContent_ledger (s := s.putDocument (d.holding change contentHash))
      (d.holding change contentHash) candidates k with h | h
    · rw [h, putDocument_ledger]
    · rw [h, putDocument_ledger]

/-- Processing an item adds no report of its own. -/
theorem report_processItem (w : Walk) {outcome : Outcome}
    (h : change.state = .active ∨ outcome.completes = false) :
    ((s.processItem w change outcome).ledger change.key).report =
      ((s.meet w change).ledger change.key).report := by
  unfold processItem
  dsimp only
  split
  · rfl
  cases outcome with
  | early fatal =>
    cases fatal with
    | true => rfl
    | false => exact report_recordItemFailure _ _
  | fails => exact report_recordItemFailure _ _
  | fatal => rfl
  | done contentHash candidates =>
    obtain hstate | hfails := h
    · have hdone := report_ingestContent
        (s := (s.meet w change).putDocument (upsertDocument w.scopeId (s.document change.key) change))
        (upsertDocument w.scopeId (s.document change.key) change) change contentHash candidates
        change.key
      unfold finishItem
      simp only [hstate]
      split
      · rw [setLedger_ledger]
        split <;> simpa only [clearIngestFailure_ledger, putDocument_ledger] using hdone
      · rfl
    · cases hfails

/-- A download is not tried at a quarantined revision. -/
theorem quarantinedAt_of_tries {scopeId : Nat} (h : s.tries scopeId change = true) :
    s.quarantinedAt change.key change.revision = false := by
  rw [← quarantinedAt_putDocument_upsert scopeId]
  unfold quarantinedAt
  rw [document_putDocument, upsertDocument_key, if_pos rfl]
  simp only [tries, Bool.and_eq_true, Bool.not_eq_true'] at h
  exact h.1.2

/-- What is expected after an item was expected before it, or is there. -/
theorem expected_processItem (hlinked : Linked s) (w : Walk) (hstate : change.state = .active)
    (outcome : Outcome) (h : (s.processItem w change outcome).Expected change.key change.revision) :
    s.Expected change.key change.revision ∨
      (s.processItem w change outcome).alive change.key = true := by
  obtain ⟨hquarantined, htakenDown⟩ := h
  unfold processItem at hquarantined htakenDown ⊢
  have hnot : ¬ (change.state = .deleted ∧ s.document change.key = none) := by simp [hstate]
  rw [if_neg hnot] at hquarantined htakenDown ⊢
  have hput : ((s.meet w change).putDocument
      (upsertDocument w.scopeId (s.document change.key) change)).quarantinedAt change.key
        change.revision = s.quarantinedAt change.key change.revision :=
    quarantinedAt_putDocument_upsert (s := s.meet w change) w.scopeId change change.revision
  cases outcome with
  | early fatal =>
    refine Or.inl ?_
    cases fatal with
    | true => exact ⟨hquarantined, by simpa using htakenDown⟩
    | false =>
      refine ⟨?_, by simpa using htakenDown⟩
      by_contra hq
      have hstill := quarantinedAt_recordItemFailure (s := s.meet w change)
        (eq_true_of_ne_false hq)
      exact absurd (hstill.symm.trans hquarantined) (by decide)
  | fails =>
    refine Or.inl ⟨?_, by simpa using htakenDown⟩
    by_contra hq
    have hstill := quarantinedAt_recordItemFailure (hput.trans (eq_true_of_ne_false hq))
    exact absurd (hstill.symm.trans hquarantined) (by decide)
  | fatal => exact Or.inl ⟨hput.symm.trans hquarantined, by simpa using htakenDown⟩
  | done contentHash candidates =>
    cases htries : s.tries w.scopeId change with
    | false =>
      simp only [htries, finishItem, hstate] at hquarantined htakenDown
      exact Or.inl ⟨hput.symm.trans hquarantined, by simpa using htakenDown⟩
    | true =>
      simp only [htries, finishItem, hstate] at hquarantined htakenDown ⊢
      have hmeet : Linked ((s.meet w change).putDocument
          (upsertDocument w.scopeId (s.document change.key) change)) := hlinked
      rcases ledger_ingestContent hmeet (upsertDocument w.scopeId (s.document change.key) change)
        change contentHash candidates with halive | hledger
      · exact Or.inr (by simpa using halive)
      · refine Or.inl ⟨quarantinedAt_of_tries htries, ?_⟩
        simpa [setLedger_ledger, hledger] using htakenDown

/-- A document that has to have something, and whose download is new, has something afterwards. -/
theorem alive_of_renews (hlinked : Linked s) (w : Walk) {outcome : Outcome}
    (hs : s.supports change = true) (hexpected : s.Expected change.key change.revision)
    (hrenews : s.Renews change outcome) :
    (s.processItem w change outcome).alive change.key = true := by
  cases outcome with
  | early _ | fails | fatal => exact absurd hrenews id
  | done contentHash candidates =>
    have hstate := state_of_supports hs
    have htries : s.tries w.scopeId change = true := by
      by_contra hnot
      obtain ⟨d, hd, hq | ⟨hrevision, hhash⟩⟩ := not_tried hs (eq_false_of_ne_true hnot)
      · have hquarantined : s.quarantinedAt change.key change.revision = true := by
          simpa [quarantinedAt, hd] using hq
        exact absurd (hquarantined.symm.trans hexpected.1) (by decide)
      · obtain ⟨h, hh⟩ := Option.isSome_iff_exists.mp hhash
        exact (hrenews d hd h hh).1 hrevision
    have hnew : (upsertDocument w.scopeId (s.document change.key) change).contentHash ≠
        some contentHash := by
      cases hd : s.document change.key with
      | none => exact fun h => by cases h
      | some d => exact fun h => (hrenews d hd contentHash h).2 rfl
    have hput : Linked ((s.meet w change).putDocument
        (upsertDocument w.scopeId (s.document change.key) change)) := hlinked
    have hdiffers : ¬ ((upsertDocument w.scopeId (s.document change.key) change).contentHash =
        some contentHash ∧
        (upsertDocument w.scopeId (s.document change.key) change).revision = change.revision) :=
      fun h => hnew h.1
    have halive := alive_ingestContent hput hdiffers candidates
    unfold processItem
    simp only [finishItem, hstate, htries]
    simpa using halive

end Download

/-! ### An item -/

section Item

variable {s : SourceState} {w : Walk} {change : NormalizedChange} {outcome : Outcome}

/-- An item that is there settles its document. -/
theorem settled_active (h : Settled s) (hlinked : Linked s) (hstate : change.state = .active)
    (hc : Settles s (.item change outcome)) : Settled (s.processItem w change outcome) := by
  have hwithin : Within change.key s (s.processItem w change outcome) :=
    Within.processItem w (Or.inl hstate)
  have hreport : ((s.processItem w change outcome).ledger change.key).report =
      some (.present change.revision (s.supports change)) :=
    (report_processItem w (Or.inl hstate)).trans (report_meet_active w hstate)
  intro k
  by_cases hk : k = change.key
  · subst hk
    refine ⟨fun hgone => ?_, fun revision hpresent hexpected => ?_⟩
    · rw [hreport] at hgone
      cases hgone
    · rw [hreport] at hpresent
      obtain ⟨rfl, hs⟩ : change.revision = revision ∧ s.supports change = true := by
        simpa using hpresent
      by_cases halive : s.alive change.key = true
      · exact hwithin.alive halive
      · rcases expected_processItem hlinked w hstate outcome hexpected with hbefore | hdone
        · have hrenews := hc.2 hs (eq_false_of_ne_true halive) hbefore
          exact alive_of_renews hlinked w hs hbefore hrenews
        · exact hdone
  · exact (h k).undisturbed (hwithin.undisturbed hk)

/-- A report of a deletion settles a document that nothing is served of. -/
theorem settled_of_nothing (h : Settled s) {t : SourceState} (hwithin : Within change.key s t)
    (hreport : (t.ledger change.key).report = some .deleted)
    (hnothing : s.NothingServed change.key) : Settled t := by
  intro k
  by_cases hk : k = change.key
  · subst hk
    refine ⟨fun _ => ?_, fun revision hpresent => ?_⟩
    · unfold NothingServed
      rw [hwithin.articles]
      exact hnothing
    · rw [hreport] at hpresent
      cases hpresent
  · exact (h k).undisturbed (hwithin.undisturbed hk)

/-- An item that is gone settles its document. -/
theorem settled_deleted (h : Settled s) (hlinked : Linked s) (hstate : change.state = .deleted)
    (hc : Settles s (.item change outcome)) : Settled (s.processItem w change outcome) := by
  have hmeet : Within change.key s (s.meet w change) := Within.meet w change
  have hreport := report_meet_deleted (s := s) w hstate
  have htakes := hc.1 hstate
  cases hd : s.document change.key with
  | none =>
    have ht : s.processItem w change outcome = s.meet w change := by
      exact if_pos ⟨hstate, hd⟩
    rw [ht]
    refine settled_of_nothing h hmeet hreport ?_
    rwa [hd] at htakes
  | some d =>
    cases hcompletes : outcome.completes with
    | false =>
      refine settled_of_nothing h (Within.processItem w (Or.inr hcompletes))
        ((report_processItem w (Or.inr hcompletes)).trans hreport) ?_
      rwa [hd, hcompletes] at htakes
    | true =>
      cases outcome with
      | early _ | fails | fatal => cases hcompletes
      | done contentHash candidates =>
        have hrow : s.Removable d := by rwa [hd] at htakes
        have hkey := key_of_document s hd
        unfold processItem
        simp only [finishItem, hstate, hd]
        have hput : Within change.key s
            ((s.meet w change).putDocument (upsertDocument w.scopeId (some d) change)) :=
          hmeet.putDocument rfl
        have hup : ((s.meet w change).putDocument
            (upsertDocument w.scopeId (some d) change)).Removable
              (upsertDocument w.scopeId (some d) change) := by
          intro a ha hserved
          rw [upsertDocument_key, ← hkey]
          exact hrow a ha hserved
        have hlink : Linked ((s.meet w change).putDocument
            (upsertDocument w.scopeId (some d) change)) := hlinked
        intro k
        by_cases hk : change.key = k
        · exact hk ▸ settledAt_removal hup
        · exact ((h k).undisturbed (hput.undisturbed (Ne.symm hk))).undisturbed
            (undisturbed_removal hlink hup hk)

/-- **One reported change.** -/
theorem settled_item (h : Settled s) (hlinked : Linked s)
    (hc : Settles s (.item change outcome)) : Settled (s.processItem w change outcome) := by
  cases hstate : change.state with
  | active => exact settled_active h hlinked hstate hc
  | deleted => exact settled_deleted h hlinked hstate hc

end Item

end QnscKb.Sync
