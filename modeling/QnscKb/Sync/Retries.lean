import QnscKb.Sync.Documents

/-!
# Sync — Retries

An *awaited* revision is the latest one reported of a supported file, not the one ingested last, and
with attempts left.  A walk that reports it again should try its download.

A row that stands at the reported revision and has the hash of some content is not ingested again,
so the retry is lost where a row with content moves to a revision before its content is there.
-/

namespace QnscKb.Sync
open Runs SourceState

/-! ### The property -/

/-- The latest supported revision, not ingested, with attempts left. -/
def Awaited (l : Ledger) (revision : Option String) : Prop :=
  l.latest = some revision ∧ l.ingested ≠ some revision ∧
    l.failures (revisionText revision) < MAX_ITEM_ATTEMPTS

instance (l : Ledger) (revision : Option String) : Decidable (Awaited l revision) :=
  inferInstanceAs (Decidable (_ ∧ _ ∧ _))

/-- A walk that reports an awaited revision tries its download. -/
def RetriesAwaited (s : SourceState) : SourceAction → Prop
  | .item change _ => ∀ w ∈ s.walk, s.supports change = true →
      Awaited (s.ledger change.key) change.revision → s.tries w.scopeId change = true
  | _ => True

instance (s : SourceState) : (a : SourceAction) → Decidable (RetriesAwaited s a)
  | .item _ _ => inferInstanceAs (Decidable (∀ w ∈ s.walk, _ → _ → _))
  | .beginWalk .. | .abortWalk | .endWalk | .approve .. | .reject _ | .commitCandidates .. |
    .setArticleStatus .. | .restoreVersion _ => isTrue trivial

def Outcome.commits : Outcome → Bool
  | .early _ => false
  | _ => true

/-- An imported document does not change its revision without its content: the report that moves it
is ingested, or has used up its attempts. -/
def MovesWithContent (s : SourceState) : SourceAction → Prop
  | .item change outcome => ∀ d ∈ s.document change.key, d.contentHash.isSome = true →
      outcome.commits = true →
      (upsertDocument d.scopeId (some d) change).revision ≠ d.revision →
        s.supports change = true ∧
          (isQuarantined d change.revision = true ∨ outcome.completes = true)
  | _ => True

instance (s : SourceState) : (a : SourceAction) → Decidable (MovesWithContent s a)
  | .item change _ => inferInstanceAs (Decidable (∀ d ∈ s.document change.key, _ → _ → _ → _))
  | .beginWalk .. | .abortWalk | .endWalk | .approve .. | .reject _ | .commitCandidates .. |
    .setArticleStatus .. | .restoreVersion _ => isTrue trivial

/-! ### The invariant -/

/-- A row with content stands at the revision ingested last, or at one that has used up its
attempts; and the attempts it counts have failed. -/
structure Accounted (d : ExternalDocument) (l : Ledger) : Prop where
  content : d.contentHash.isSome = true →
    l.ingested = some d.revision ∨ MAX_ITEM_ATTEMPTS ≤ l.failures (revisionText d.revision)
  attempts : ∀ failure ∈ d.ingestFailure, failure.attempts ≤ l.failures failure.revision

def RowsAccounted (documents : List ExternalDocument) (ledger : DocumentKey → Ledger) : Prop :=
  ∀ d ∈ documents, Accounted d (ledger d.key)

def AllAccounted (s : SourceState) : Prop := RowsAccounted s.documents s.ledger

/-- The same was ingested last, and no failure is forgotten. -/
structure Counts (l l' : Ledger) : Prop where
  ingested : l'.ingested = l.ingested
  failures : ∀ r, l.failures r ≤ l'.failures r

theorem Counts.refl (l : Ledger) : Counts l l := ⟨rfl, fun _ => le_refl _⟩

variable {d : ExternalDocument}

theorem Accounted.mono {l l' : Ledger} (h : Accounted d l) (hl : Counts l l') : Accounted d l' where
  content hhash := by
    rcases h.content hhash with hlast | hfailed
    · exact Or.inl (hl.ingested.trans hlast)
    · exact Or.inr (hfailed.trans (hl.failures _))
  attempts failure hfailure := (h.attempts failure hfailure).trans (hl.failures _)

theorem Accounted.failures_of_quarantined {l : Ledger} {revision : Option String}
    (h : Accounted d l) (hq : isQuarantined d revision = true) :
    MAX_ITEM_ATTEMPTS ≤ l.failures (revisionText revision) := by
  simp only [isQuarantined, Option.any_eq_true, Bool.and_eq_true, beq_iff_eq,
    decide_eq_true_eq] at hq
  obtain ⟨failure, hfailure, hrevision, hattempts⟩ := hq
  exact hrevision ▸ hattempts.trans (h.attempts failure hfailure)

theorem attemptsAfter_le {l : Ledger} (h : Accounted d l) (revision : Option String) :
    attemptsAfter d revision ≤ l.failures (revisionText revision) + 1 := by
  unfold SourceState.attemptsAfter
  cases hf : d.ingestFailure with
  | none => exact Nat.le_add_left _ _
  | some failure =>
    have hle := h.attempts failure hf
    by_cases hr : failure.revision = revisionText revision
    · simp only [if_pos hr]
      exact hr ▸ Nat.succ_le_succ hle
    · simp only [if_neg hr]
      exact Nat.le_add_left _ _

namespace AllAccounted

variable {s : SourceState}

variable {ledger : DocumentKey → Ledger} {d : ExternalDocument}

theorem put (h : ∀ b ∈ s.documents, b.key ≠ d.key → Accounted b (ledger b.key))
    (hd : Accounted d (ledger d.key)) : RowsAccounted (s.putDocument d).documents ledger := by
  intro b hb
  rcases List.mem_cons.mp hb with rfl | hb
  · exact hd
  · obtain ⟨hmem, hkey⟩ := List.mem_filter.mp hb
    exact h b hmem (by simpa using hkey)

theorem putDocument (h : AllAccounted s) (hd : Accounted d (s.ledger d.key)) :
    AllAccounted (s.putDocument d) :=
  put (fun b hb _ => h b hb) hd

theorem setLedger (h : AllAccounted s) {k : DocumentKey} {f : Ledger → Ledger}
    (hf : ∀ l, Counts l (f l)) : AllAccounted (s.setLedger k f) := by
  intro d hd
  refine (h d hd).mono ?_
  rw [setLedger_ledger]
  split
  · exact hf _
  · exact Counts.refl _

theorem found (h : AllAccounted s) {k : DocumentKey} (hd : s.document k = some d) :
    Accounted d (s.ledger k) :=
  key_of_document s hd ▸ h d (List.mem_of_find?_eq_some hd)

/-! ### Items -/

theorem enter (h : AllAccounted s) (change : NormalizedChange) :
    AllAccounted (s.enter change) := by
  refine h.setLedger fun l => ?_
  cases change.state <;> exact ⟨rfl, fun _ => le_refl _⟩

theorem recordItemFailure (h : AllAccounted s) (change : NormalizedChange) :
    AllAccounted (s.recordItemFailure change) := by
  have hcounted := h.setLedger (k := change.key) (f := fun l =>
    { l with failures := fun r =>
        if r = revisionText change.revision then l.failures r + 1 else l.failures r })
    (fun l => ⟨rfl, fun r => by dsimp only; split <;> omega⟩)
  unfold SourceState.recordItemFailure
  cases hd : s.document change.key with
  | none => exact hcounted
  | some d =>
    have hkey := key_of_document s hd
    refine hcounted.putDocument ⟨(hcounted d (List.mem_of_find?_eq_some hd)).content, ?_⟩
    rintro failure ⟨⟩
    simpa [setLedger_ledger, hkey] using attemptsAfter_le (h.found hd) change.revision

theorem clearIngestFailure (h : RowsAccounted s.documents ledger) (k : DocumentKey) :
    RowsAccounted (s.clearIngestFailure k).documents ledger := by
  unfold SourceState.clearIngestFailure
  cases hd : s.document k with
  | none => exact h
  | some d =>
    refine put (fun b hb _ => h b hb) ⟨(h d (List.mem_of_find?_eq_some hd)).content, ?_⟩
    rintro failure ⟨⟩

theorem handleDeletedDocument (h : AllAccounted s) (hd : Accounted d (s.ledger d.key)) :
    AllAccounted (s.handleDeletedDocument d) := by
  have hput : AllAccounted (s.putDocument { d with state := .deleted }) :=
    h.putDocument ⟨hd.content, hd.attempts⟩
  -- its drafts and articles are not accounted for
  refine AllAccounted.setLedger (f := fun l => { l with report := some .deleted }) hput fun l => ?_
  exact ⟨rfl, fun _ => le_refl _⟩

variable {change : NormalizedChange}

theorem ingestContent_rows (h : RowsAccounted s.documents ledger) {document : ExternalDocument}
    (hlast : (ledger document.key).ingested = some change.revision)
    (hfailures : ∀ failure ∈ document.ingestFailure,
        failure.attempts ≤ (ledger document.key).failures failure.revision)
    (contentHash : String) (candidates : Bool) :
    RowsAccounted (s.ingestContent document change contentHash candidates).documents ledger := by
  unfold SourceState.ingestContent
  split
  · split
    · split
      · exact h
      · exact h
    · exact h
  · dsimp only
    rw [draftContent_documents]
    exact put (fun b hb _ => h b hb) ⟨fun _ => Or.inl hlast, hfailures⟩

theorem ingestContent_counts (document : ExternalDocument) (change : NormalizedChange)
    (contentHash : String) (candidates : Bool) (k : DocumentKey) :
    Counts (s.ledger k)
      ((s.ingestContent document change contentHash candidates).ledger k) := by
  unfold SourceState.ingestContent
  split
  · split
    · split
      · exact Counts.refl _
      · exact Counts.refl _
    · exact Counts.refl _
  · dsimp only
    rcases draftContent_ledger (s := s.putDocument (document.holding change contentHash))
      (document.holding change contentHash) candidates k with h | h
    · rw [h]
      exact Counts.refl _
    · rw [h]
      exact ⟨rfl, fun _ => le_refl _⟩

theorem upsert_attempts (h : AllAccounted s) (scopeId : Nat) (change : NormalizedChange) :
    ∀ failure ∈ (upsertDocument scopeId (s.document change.key) change).ingestFailure,
      failure.attempts ≤ (s.ledger change.key).failures failure.revision := by
  cases hd : s.document change.key with
  | none =>
    intro failure hfailure
    cases hfailure
  | some d => exact (h.found hd).attempts

theorem upsert (h : AllAccounted s) (scopeId : Nat)
    (hmoves : ∀ d ∈ s.document change.key, d.contentHash.isSome = true →
        (upsertDocument d.scopeId (some d) change).revision ≠ d.revision →
        s.supports change = true ∧ isQuarantined d change.revision = true) :
    Accounted (upsertDocument scopeId (s.document change.key) change) (s.ledger change.key) := by
  refine ⟨fun hhash => ?_, h.upsert_attempts scopeId change⟩
  cases hd : s.document change.key with
  | none =>
    rw [hd] at hhash
    cases hhash
  | some d =>
    rw [hd] at hhash
    by_cases hrevision : (upsertDocument d.scopeId (some d) change).revision = d.revision
    · have hrow : (upsertDocument scopeId (some d) change).revision = d.revision := hrevision
      rw [hrow]
      exact (h.found hd).content hhash
    · obtain ⟨hs, hq⟩ := hmoves d hd hhash hrevision
      rw [upsertDocument_revision scopeId _ (state_of_supports hs)]
      exact Or.inr ((h.found hd).failures_of_quarantined hq)

theorem ingested (h : AllAccounted s) (scopeId : Nat) (hstate : change.state = .active)
    (contentHash : String) (candidates : Bool) :
    AllAccounted ((s.putDocument (upsertDocument scopeId (s.document change.key) change)).finishItem
      true (upsertDocument scopeId (s.document change.key) change) change contentHash
      candidates) := by
  have hattempts := h.upsert_attempts scopeId change
  have hkey : (upsertDocument scopeId (s.document change.key) change).key = change.key := rfl
  have hrevision := upsertDocument_revision scopeId (s.document change.key) hstate
  generalize upsertDocument scopeId (s.document change.key) change = d at *
  have hcounts := ingestContent_counts (s := s.putDocument d) d change contentHash candidates
  rw [← hkey] at hattempts
  -- every row counts by the ledger the item ends with
  generalize ht : ((s.putDocument d).finishItem true d change contentHash candidates).ledger = ledger
  have hother : ∀ k, k ≠ d.key → Counts (s.ledger k) (ledger k) := by
    intro k hk
    rw [← ht]
    simpa [finishItem, hstate, setLedger_ledger, hk] using hcounts k
  have hlast : (ledger d.key).ingested = some change.revision := by
    rw [← ht]
    simp [finishItem, hstate, setLedger_ledger]
  have hfailures : ∀ failure ∈ d.ingestFailure,
      failure.attempts ≤ (ledger d.key).failures failure.revision := by
    intro failure hfailure
    refine (hattempts failure hfailure).trans ?_
    rw [← ht]
    simpa [finishItem, hstate, setLedger_ledger] using (hcounts d.key).failures failure.revision
  have hput : RowsAccounted (s.putDocument d).documents ledger := by
    refine put (fun b hb hne => (h b hb).mono (hother b.key hne)) ⟨fun _ => Or.inl ?_, hfailures⟩
    rw [hlast, hrevision]
  have hdone := clearIngestFailure
    (ingestContent_rows hput hlast hfailures contentHash candidates) d.key
  rw [AllAccounted, ht]
  simpa [finishItem, hstate] using hdone

/-- **One reported change.** -/
theorem processItem (h : AllAccounted s) (w : Walk) {outcome : Outcome}
    (hmoves : MovesWithContent s (.item change outcome)) :
    AllAccounted (s.processItem w change outcome) := by
  have henter : AllAccounted (s.meet w change) :=
    AllAccounted.enter (s := { s with walk := _ }) h change
  unfold SourceState.processItem
  dsimp only
  split
  · exact henter
  · cases outcome with
    | early fatal =>
      dsimp only
      split
      · exact henter
      · exact henter.recordItemFailure change
    | fails =>
      have hrow := henter.upsert w.scopeId fun d hd hhash hne => by
        obtain ⟨hs, hq | hdone⟩ := hmoves d hd hhash rfl hne
        · exact ⟨hs, hq⟩
        · cases hdone
      exact (henter.putDocument hrow).recordItemFailure change
    | fatal =>
      have hrow := henter.upsert w.scopeId fun d hd hhash hne => by
        obtain ⟨hs, hq | hdone⟩ := hmoves d hd hhash rfl hne
        · exact ⟨hs, hq⟩
        · cases hdone
      exact henter.putDocument hrow
    | done contentHash candidates =>
      cases htries : s.tries w.scopeId change with
      | true =>
        have hstate := state_of_supports (supports_of_tries htries)
        exact henter.ingested w.scopeId hstate contentHash candidates
      | false =>
        -- a row that moves without a download is quarantined
        have hrow := henter.upsert w.scopeId fun d hd hhash hne => by
          obtain ⟨hs, -⟩ := hmoves d hd hhash rfl hne
          obtain ⟨d', hd', hq | ⟨hsame, -⟩⟩ := not_tried hs htries
          · exact ⟨hs, Option.some.inj (hd.symm.trans hd') ▸ hq⟩
          · cases Option.some.inj (hd.symm.trans hd')
            have hreported := upsertDocument_revision d.scopeId (some d) (state_of_supports hs)
            exact absurd (hreported.trans hsame.symm) hne
        have hput := henter.putDocument hrow
        unfold finishItem
        cases hstate : change.state with
        | deleted => exact hput.handleDeletedDocument hrow
        | active => exact hput

theorem handleDeletedDocument_counts (d : ExternalDocument) (k : DocumentKey) :
    Counts (s.ledger k) ((s.handleDeletedDocument d).ledger k) := by
  unfold SourceState.handleDeletedDocument
  rw [setLedger_ledger]
  split
  · exact ⟨rfl, fun _ => le_refl _⟩
  · exact Counts.refl _

theorem sweep (documents : List ExternalDocument) (h : AllAccounted s)
    (hd : RowsAccounted documents s.ledger) :
    AllAccounted (documents.foldl SourceState.handleDeletedDocument s) := by
  induction documents generalizing s with
  | nil => exact h
  | cons d documents ih =>
    refine ih (h.handleDeletedDocument (hd d List.mem_cons_self)) fun b hb => ?_
    exact (hd b (List.mem_cons_of_mem d hb)).mono (handleDeletedDocument_counts d b.key)

theorem endWalk (h : AllAccounted s) (w : Walk) : AllAccounted (s.endWalk w) := by
  refine h.sweep (s.staleDocuments w) fun d hd => h d ?_
  unfold staleDocuments at hd
  split at hd
  · exact List.mem_of_mem_filter hd
  · cases hd

/-! ### People -/

theorem ruleOut (h : AllAccounted s) (k : DocumentKey) : AllAccounted (s.ruleOut k) := by
  unfold SourceState.ruleOut
  split
  · exact h
  · exact h.setLedger fun l => ⟨rfl, fun _ => le_refl _⟩

theorem bringBack (h : AllAccounted s) (k : DocumentKey) : AllAccounted (s.bringBack k) := by
  unfold SourceState.bringBack
  split
  · exact h.setLedger fun l => ⟨rfl, fun _ => le_refl _⟩
  · exact h

theorem linkArticle (h : AllAccounted s) (draft : SourceDraft) (articleId : Nat) :
    AllAccounted (s.linkArticle draft articleId) := by
  unfold SourceState.linkArticle
  split
  · rename_i d hd
    obtain ⟨k, -, hd⟩ := Option.bind_eq_some_iff.mp hd
    have hrow := h d (List.mem_of_find?_eq_some hd)
    exact h.putDocument ⟨hrow.content, hrow.attempts⟩
  · exact h

theorem approveDraft {t : SourceState} (h : AllAccounted s) {draftId : Nat} {target : Option Nat}
    (hs : s.approveDraft draftId target = some t) : AllAccounted t := by
  obtain ⟨draft, -, hs⟩ := Option.bind_eq_some_iff.mp hs
  split at hs
  · cases hs
  · cases target with
    | none =>
      cases hs
      exact AllAccounted.linkArticle (s := s.createArticle draft.origin) h draft s.nextId
    | some article =>
      dsimp only at hs
      split at hs
      · cases hs
        exact AllAccounted.linkArticle (s := s.updateArticle article draft.origin) h draft article
      · cases hs

/-- **One step.** -/
theorem step {a : SourceAction} {t : SourceState} (h : AllAccounted s)
    (hmoves : MovesWithContent s a) (hs : SourceStep s a t) : AllAccounted t := by
  rw [sourceStep_iff] at hs
  cases a with
  | beginWalk scopeId full =>
    simp only [nextSource] at hs
    split at hs
    · cases hs
      exact h
    · cases hs
  | item change outcome =>
    obtain ⟨w, -, rfl⟩ := Option.map_eq_some_iff.mp hs
    exact h.processItem w hmoves
  | abortWalk =>
    obtain ⟨w, -, rfl⟩ := Option.map_eq_some_iff.mp hs
    exact h
  | endWalk =>
    obtain ⟨w, -, rfl⟩ := Option.map_eq_some_iff.mp hs
    exact h.endWalk w
  | approve draftId target => exact h.approveDraft hs
  | reject draftId =>
    obtain ⟨draft, -, rfl⟩ := Option.map_eq_some_iff.mp hs
    exact AllAccounted.ruleOut (s := s.setStatus draftId .rejected) h draft.origin
  | commitCandidates draftId children =>
    obtain ⟨parent, -, rfl⟩ := Option.map_eq_some_iff.mp hs
    exact h
  | setArticleStatus articleId status =>
    obtain ⟨article, -, rfl⟩ := Option.map_eq_some_iff.mp hs
    split
    · exact AllAccounted.bringBack (s := s.setArticles _) h article.origin
    · exact AllAccounted.ruleOut (s := s.setArticles _) h article.origin
  | restoreVersion articleId =>
    obtain ⟨article, -, rfl⟩ := Option.map_eq_some_iff.mp hs
    exact AllAccounted.bringBack (s := s.setArticles _) h article.origin

end AllAccounted

theorem retries_of_accounted {s : SourceState} (h : AllAccounted s) (a : SourceAction) :
    RetriesAwaited s a := by
  cases a with
  | item change outcome =>
    rintro w - hs ⟨-, hlast, hattempts⟩
    by_contra htries
    obtain ⟨d, hd, hq | ⟨hrevision, hhash⟩⟩ := not_tried hs (eq_false_of_ne_true htries)
    · exact absurd ((h.found hd).failures_of_quarantined hq) (Nat.not_le.mpr hattempts)
    · rcases (h.found hd).content hhash with hcontent | hfailed
      · exact hlast (hrevision ▸ hcontent)
      · exact absurd hfailed (Nat.not_le.mpr (hrevision ▸ hattempts))
  | _ => trivial

theorem allAccounted_empty : AllAccounted emptySource := by
  intro d hd
  cases hd

/-- **No update is lost** while no imported document moves without its content. -/
theorem awaited_retried {tr : List (SourceState × SourceAction)} {s : SourceState}
    (r : Run SourceInitial SourceStep tr s) (hmoves : Throughout MovesWithContent tr) :
    Throughout RetriesAwaited tr :=
  r.always (by rintro _ rfl; exact allAccounted_empty) (fun _ _ _ h hc hs => h.step hc hs)
    (fun _ a _ h _ _ => retries_of_accounted h a) hmoves

/-! ### An update that fails once -/

def secondAttempt : List SourceAction :=
  [.beginWalk 1 false, .item (handbookAt "1") .fails, .endWalk,
    .beginWalk 1 false, .item (handbookAt "1") (.done "a" true), .endWalk]

theorem secondAttempt_plays : (play takeSource [] emptySource secondAttempt).isSome = true := by
  decide +kernel

theorem awaited_retried_secondAttempt :
    Throughout RetriesAwaited
      ((play takeSource [] emptySource secondAttempt).get secondAttempt_plays).1 :=
  awaited_retried (run_play initial_emptySource secondAttempt_plays) (by decide +kernel)

/-- The handbook is imported, an update of it fails, and the next walk reports it again. -/
def failedUpdate : List SourceAction :=
  [.beginWalk 1 false, .item (handbookAt "1") (.done "a" true), .endWalk,
    .beginWalk 1 false, .item (handbookAt "2") .fails, .endWalk,
    .beginWalk 1 false, .item (handbookAt "2") (.done "b" true)]

theorem failedUpdate_plays : (play takeSource [] emptySource failedUpdate).isSome = true := by
  decide +kernel

/-- The update is not tried again, after one failure. -/
theorem failed_update_forgotten :
    ¬ ∀ (tr : List (SourceState × SourceAction)) (s : SourceState),
      Run SourceInitial SourceStep tr s → Throughout RetriesAwaited tr := by
  intro h
  have hretried := h _ _ (run_play initial_emptySource failedUpdate_plays)
  exact absurd hretried (by decide +kernel)

end QnscKb.Sync
