import QnscKb.Sync.Removal

/-!
# Sync — Settled

Every document stays settled through the walks of its connector and the decisions of people.
-/

namespace QnscKb.Sync
open Review Runs SourceState

/-! ### Rows and their documents -/

/-- Ids below the next one, each with one document. -/
def Sourced (rows : List (Nat × DocumentKey)) (nextId : Nat) : Prop :=
  ∀ p ∈ rows, p.1 < nextId ∧ ∀ q ∈ rows, p.1 = q.1 → p.2 = q.2

theorem Sourced.append {rows new : List (Nat × DocumentKey)} {nextId next' : Nat}
    {k : DocumentKey} (h : Sourced rows nextId) (hnext : nextId ≤ next')
    (hnew : ∀ p ∈ new, nextId ≤ p.1 ∧ p.1 < next' ∧ p.2 = k) : Sourced (rows ++ new) next' := by
  intro p hp
  rcases List.mem_append.mp hp with hp | hp
  · refine ⟨(h p hp).1.trans_le hnext, fun q hq hid => ?_⟩
    rcases List.mem_append.mp hq with hq | hq
    · exact (h p hp).2 q hq hid
    · have hlt := (h p hp).1
      have hle := (hnew q hq).1
      omega
  · obtain ⟨hle, hlt, hk⟩ := hnew p hp
    refine ⟨hlt, fun q hq hid => ?_⟩
    rcases List.mem_append.mp hq with hq | hq
    · have hold := (h q hq).1
      omega
    · exact hk.trans (hnew q hq).2.2.symm

/-- Drafts and articles know their documents. -/
structure Tidy (s : SourceState) : Prop where
  linked : Linked s
  drafts : Sourced (s.drafts.map fun d => (d.id, d.origin)) s.nextId
  articles : Sourced (s.articles.map fun a => (a.id, a.origin)) s.nextId

namespace Tidy

variable {s : SourceState}

theorem draft_origin (h : Tidy s) {d d' : SourceDraft} (hd : d ∈ s.drafts) (hd' : d' ∈ s.drafts)
    (hid : d.id = d'.id) : d.origin = d'.origin :=
  (h.drafts _ (List.mem_map_of_mem hd)).2 _ (List.mem_map_of_mem hd') hid

theorem article_origin (h : Tidy s) {a a' : SourceArticle} (ha : a ∈ s.articles)
    (ha' : a' ∈ s.articles) (hid : a.id = a'.id) : a.origin = a'.origin :=
  (h.articles _ (List.mem_map_of_mem ha)).2 _ (List.mem_map_of_mem ha') hid

theorem setDrafts (h : Tidy s) {f : SourceDraft → SourceDraft}
    (hf : ∀ d, (f d).id = d.id ∧ (f d).origin = d.origin ∧
      (f d).externalDocument = d.externalDocument) : Tidy (s.setDrafts f) where
  linked b hb k hk := by
    obtain ⟨d, hd, rfl⟩ := List.mem_map.mp hb
    rw [(hf d).2.1]
    exact h.linked d hd k ((hf d).2.2 ▸ hk)
  drafts := by
    have hsame : ((s.setDrafts f).drafts.map fun d => (d.id, d.origin)) =
        s.drafts.map fun d => (d.id, d.origin) := by
      simp [SourceState.setDrafts, hf]
    rw [hsame]
    exact h.drafts
  articles := h.articles

theorem setArticles (h : Tidy s) {f : SourceArticle → SourceArticle}
    (hf : ∀ a ∈ s.articles, (f a).id = a.id ∧ (f a).origin = a.origin) :
    Tidy (s.setArticles f) where
  linked := h.linked
  drafts := h.drafts
  articles := by
    have hsame : ((s.setArticles f).articles.map fun a => (a.id, a.origin)) =
        s.articles.map fun a => (a.id, a.origin) := by
      simp only [SourceState.setArticles, List.map_map]
      exact List.map_congr_left fun a ha => by simp [hf a ha]
    rw [hsame]
    exact h.articles

theorem setStatus (h : Tidy s) (draftId : Nat) (status : DraftStatus) :
    Tidy (s.setStatus draftId status) :=
  h.setDrafts fun d => by split <;> exact ⟨rfl, rfl, rfl⟩

theorem addDrafts (h : Tidy s) {new : List SourceDraft} {k : DocumentKey} (nextId : Nat)
    (hnext : s.nextId ≤ nextId)
    (hnew : ∀ d ∈ new, s.nextId ≤ d.id ∧ d.id < nextId ∧ d.origin = k)
    (hlinks : ∀ d ∈ new, ∀ k', d.externalDocument = some k' → k' = k) :
    Tidy { s with drafts := s.drafts ++ new, nextId := nextId } where
  linked d hd k' hk' := by
    rcases List.mem_append.mp hd with hd | hd
    · exact h.linked d hd k' hk'
    · exact (hnew d hd).2.2.trans (hlinks d hd k' hk').symm
  drafts := by
    rw [List.map_append]
    refine h.drafts.append (k := k) hnext fun p hp => ?_
    obtain ⟨d, hd, rfl⟩ := List.mem_map.mp hp
    exact hnew d hd
  articles p hp := ⟨(h.articles p hp).1.trans_le hnext, (h.articles p hp).2⟩

theorem congr (h : Tidy s) {t : SourceState} (hdrafts : t.drafts = s.drafts)
    (harticles : t.articles = s.articles) (hnext : t.nextId = s.nextId) : Tidy t where
  linked := by
    unfold Linked
    rw [hdrafts]
    exact h.linked
  drafts := by
    rw [hdrafts, hnext]
    exact h.drafts
  articles := by
    rw [harticles, hnext]
    exact h.articles

/-! ### Walks -/

theorem handleDeletedDocument (h : Tidy s) (d : ExternalDocument) :
    Tidy (s.handleDeletedDocument d) := by
  have hput : Tidy (s.putDocument { d with state := .deleted }) := h.congr rfl rfl rfl
  have hdrafts := hput.setDrafts (f := fun draft =>
    if draft.externalDocument = some d.key ∧ draft.isOpen = true then
      { draft with status := .rejected }
    else draft) fun draft => by split <;> exact ⟨rfl, rfl, rfl⟩
  have harticles := hdrafts.setArticles (f := fun a =>
    if d.articleId = some a.id then { a with lifecycleActive := false } else a)
    fun a _ => by split <;> exact ⟨rfl, rfl⟩
  exact harticles.congr rfl rfl rfl

theorem replaceSplitCandidates (h : Tidy s) (draftId : Nat) (candidates : Bool) :
    Tidy (s.replaceSplitCandidates draftId candidates) :=
  h.setDrafts fun d => by split <;> exact ⟨rfl, rfl, rfl⟩

theorem draftContent (h : Tidy s) (d : ExternalDocument) (candidates : Bool) :
    Tidy (s.draftContent d candidates) := by
  unfold SourceState.draftContent
  split
  · refine (h.addDrafts (k := d.key) (s.nextId + 1) (Nat.le_succ _) ?_ ?_).congr rfl rfl rfl
    · intro b hb
      cases List.mem_singleton.mp hb
      exact ⟨le_refl _, Nat.lt_succ_self _, rfl⟩
    · intro b hb k hk
      cases List.mem_singleton.mp hb
      exact (Option.some.inj hk).symm
  · exact h.replaceSplitCandidates _ _

theorem ingestContent (h : Tidy s) (d : ExternalDocument) (change : NormalizedChange)
    (contentHash : String) (candidates : Bool) :
    Tidy (s.ingestContent d change contentHash candidates) := by
  unfold SourceState.ingestContent
  split
  · split
    · split
      · exact h
      · exact h.replaceSplitCandidates _ _
    · exact h
  · have hput : Tidy (s.putDocument (d.holding change contentHash)) := h.congr rfl rfl rfl
    exact hput.draftContent _ _

theorem recordItemFailure (h : Tidy s) (change : NormalizedChange) :
    Tidy (s.recordItemFailure change) := by
  unfold SourceState.recordItemFailure
  split <;> exact h.congr rfl rfl rfl

theorem clearIngestFailure (h : Tidy s) (k : DocumentKey) : Tidy (s.clearIngestFailure k) := by
  unfold SourceState.clearIngestFailure
  split
  · exact h.congr rfl rfl rfl
  · exact h

theorem finishItem (h : Tidy s) (tried : Bool) (d : ExternalDocument) (change : NormalizedChange)
    (contentHash : String) (candidates : Bool) :
    Tidy (s.finishItem tried d change contentHash candidates) := by
  unfold SourceState.finishItem
  split
  · exact h.handleDeletedDocument d
  · split
    · have hdone := (h.ingestContent d change contentHash candidates).clearIngestFailure d.key
      exact hdone.congr rfl rfl rfl
    · exact h

theorem processItem (h : Tidy s) (w : Walk) (change : NormalizedChange) (outcome : Outcome) :
    Tidy (s.processItem w change outcome) := by
  have hmeet : Tidy (s.meet w change) := h.congr rfl rfl rfl
  have hput : Tidy ((s.meet w change).putDocument
      (upsertDocument w.scopeId (s.document change.key) change)) := hmeet.congr rfl rfl rfl
  unfold SourceState.processItem
  dsimp only
  split
  · exact hmeet
  cases outcome with
  | early fatal =>
    cases fatal with
    | true => exact hmeet.congr rfl rfl rfl
    | false => exact hmeet.recordItemFailure change
  | fails => exact hput.recordItemFailure change
  | fatal => exact hput.congr rfl rfl rfl
  | done contentHash candidates => exact hput.finishItem _ _ change contentHash candidates

theorem endWalk (h : Tidy s) (w : Walk) : Tidy (s.endWalk w) := by
  have hsweep : ∀ documents : List ExternalDocument, ∀ {t : SourceState}, Tidy t →
      Tidy (documents.foldl SourceState.handleDeletedDocument t) := by
    intro documents
    induction documents with
    | nil => exact id
    | cons d documents ih => exact fun ht => ih (ht.handleDeletedDocument d)
  exact (hsweep (s.staleDocuments w) h).congr rfl rfl rfl

/-! ### People -/

theorem ruleOut (h : Tidy s) (k : DocumentKey) : Tidy (s.ruleOut k) := by
  unfold SourceState.ruleOut
  split
  · exact h
  · exact h.congr rfl rfl rfl

theorem bringBack (h : Tidy s) (k : DocumentKey) : Tidy (s.bringBack k) := by
  unfold SourceState.bringBack
  split
  · exact h.congr rfl rfl rfl
  · exact h

theorem linkArticle (h : Tidy s) (draft : SourceDraft) (articleId : Nat) :
    Tidy (s.linkArticle draft articleId) := by
  unfold SourceState.linkArticle
  split
  · exact h.congr rfl rfl rfl
  · exact h

theorem createArticle (h : Tidy s) (origin : DocumentKey) : Tidy (s.createArticle origin) where
  linked := h.linked
  drafts p hp := ⟨(h.drafts p hp).1.trans (Nat.lt_succ_self _), (h.drafts p hp).2⟩
  articles := by
    have hnew : ∀ p ∈ [(s.nextId, origin)],
        s.nextId ≤ p.1 ∧ p.1 < s.nextId + 1 ∧ p.2 = origin := by
      intro p hp
      cases List.mem_singleton.mp hp
      exact ⟨le_refl _, Nat.lt_succ_self _, rfl⟩
    have hrows := h.articles.append (Nat.le_succ s.nextId) hnew
    simpa [SourceState.createArticle] using hrows

theorem updateArticle (h : Tidy s) {target : Nat} {origin : DocumentKey}
    (horigin : ∀ a ∈ s.articles, a.id = target → a.origin = origin) :
    Tidy (s.updateArticle target origin) :=
  h.setArticles fun a ha => by
    split
    · exact ⟨rfl, (horigin a ha ‹_›).symm⟩
    · exact ⟨rfl, rfl⟩

end Tidy

/-! ### Decisions -/

section Decisions

variable {s t : SourceState}

variable {draftId articleId : Nat} {draft : SourceDraft}

theorem mem_of_pendingById (h : s.pendingById draftId = some draft) :
    draft ∈ s.drafts ∧ draft.id = draftId := by
  have hfound := List.find?_some h
  simp only [Bool.and_eq_true, beq_iff_eq] at hfound
  exact ⟨List.mem_of_find?_eq_some h, hfound.1⟩

theorem mem_of_liveArticle {a : SourceArticle} (h : s.liveArticle articleId = some a) :
    a ∈ s.articles ∧ a.id = articleId := by
  obtain ⟨h, -⟩ := Option.filter_eq_some_iff.mp h
  exact ⟨List.mem_of_find?_eq_some h, by simpa using List.find?_some h⟩

variable {k : DocumentKey}

theorem undisturbed_setStatus (htidy : Tidy s) (hdraft : draft ∈ s.drafts) (status : DraftStatus)
    (hk : k ≠ draft.origin) : Undisturbed s (s.setStatus draft.id status) k := by
  refine Undisturbed.setDrafts fun d hd horigin hopen => ?_
  have hid : d.id ≠ draft.id := fun h => hk (horigin ▸ htidy.draft_origin hd hdraft h)
  rw [if_neg hid]
  exact ⟨horigin, hopen⟩

theorem undisturbed_ruleOut {k' : DocumentKey} (hk : k ≠ k') : Undisturbed s (s.ruleOut k') k := by
  unfold ruleOut
  split
  · exact .refl _ _
  · exact .setLedger fun h => absurd h hk

theorem undisturbed_bringBack {k' : DocumentKey} (hk : k ≠ k') :
    Undisturbed s (s.bringBack k') k := by
  unfold bringBack
  split
  · exact .setLedger fun h => absurd h hk
  · exact .refl _ _

theorem settledAt_ruleOut (hgone : (s.ledger k).report = some .deleted → s.NothingServed k) :
    SettledAt (s.ruleOut k) k := by
  unfold ruleOut
  by_cases halive : s.alive k = true
  · rw [if_pos halive]
    exact ⟨hgone, fun _ _ _ => halive⟩
  · rw [if_neg halive]
    refine ⟨fun h => hgone (by simpa [setLedger_ledger] using h), fun revision _ hexpected => ?_⟩
    have htaken := hexpected.2
    simp [setLedger_ledger] at htaken

theorem settledAt_bringBack (h : SettledAt s k) : SettledAt (s.bringBack k) k := by
  unfold bringBack
  by_cases halive : s.alive k = true
  · rw [if_pos halive]
    exact ⟨fun hgone => h.gone (by simpa [setLedger_ledger] using hgone), fun _ _ _ => halive⟩
  · rw [if_neg halive]
    exact h

theorem undisturbed_linkArticle (draft : SourceDraft) (articleId : Nat) (k : DocumentKey) :
    Undisturbed s (s.linkArticle draft articleId) k := by
  unfold linkArticle
  split
  · rename_i d hd
    obtain ⟨k', -, hd⟩ := Option.bind_eq_some_iff.mp hd
    refine .putDocument _ fun hk revision => ?_
    have hkey := key_of_document s hd
    have hfound : s.document k = some d := by rw [← hk, hkey, hd]
    simp only [quarantinedAt, hfound]
    rfl
  · exact .refl _ _

theorem settled_reject (h : Settled s) (htidy : Tidy s) (hs : s.rejectDraft draftId = some t) :
    Settled t := by
  obtain ⟨draft, hdraft, rfl⟩ := Option.map_eq_some_iff.mp hs
  obtain ⟨hmem, rfl⟩ := mem_of_pendingById hdraft
  intro k
  by_cases hk : k = draft.origin
  · subst hk
    exact settledAt_ruleOut (h draft.origin).gone
  · exact ((h k).undisturbed (undisturbed_setStatus htidy hmem _ hk)).undisturbed
      (undisturbed_ruleOut hk)

theorem settled_commitCandidates (h : Settled s) (htidy : Tidy s) {children : Nat}
    (hs : s.commitCandidates draftId children = some t) : Settled t := by
  obtain ⟨draft, hdraft, rfl⟩ := Option.map_eq_some_iff.mp hs
  obtain ⟨hmem, rfl⟩ := mem_of_pendingById (Option.filter_eq_some_iff.mp hdraft).1
  intro k
  by_cases hk : k = draft.origin
  · subst hk
    refine ⟨(h draft.origin).gone, fun _ _ _ => ?_⟩
    rw [alive_iff]
    refine Or.inr ⟨childDraft draft.origin (s.nextId + 0), List.mem_append_right _ ?_, rfl, rfl⟩
    exact List.mem_map.mpr ⟨0, List.mem_range.mpr (Nat.succ_pos _), rfl⟩
  · refine ((h k).undisturbed (undisturbed_setStatus htidy hmem .rejected hk)).undisturbed ?_
    exact .grown rfl rfl rfl fun d hd => List.mem_append_left _ hd

@[simp] theorem linkArticle_drafts (draft : SourceDraft) (articleId : Nat) :
    (s.linkArticle draft articleId).drafts = s.drafts := by
  unfold linkArticle
  split <;> rfl

@[simp] theorem linkArticle_articles (draft : SourceDraft) (articleId : Nat) :
    (s.linkArticle draft articleId).articles = s.articles := by
  unfold linkArticle
  split <;> rfl

@[simp] theorem linkArticle_ledger (draft : SourceDraft) (articleId : Nat) :
    (s.linkArticle draft articleId).ledger = s.ledger := by
  unfold linkArticle
  split <;> rfl

theorem undisturbed_approved (htidy : Tidy s) (hdraft : draft ∈ s.drafts) (articleId : Nat)
    (hk : k ≠ draft.origin) :
    Undisturbed s ((s.linkArticle draft articleId).setStatus draft.id .approved) k :=
  (undisturbed_linkArticle draft articleId k).trans
    (undisturbed_setStatus (htidy.linkArticle draft articleId) (by simpa using hdraft) _ hk)

theorem settledAt_approved (hgone : s.NotGone draft.origin)
    (hserved : ∃ a ∈ s.articles, a.origin = draft.origin ∧ a.served = true) :
    SettledAt ((s.linkArticle draft articleId).setStatus draft.id .approved) draft.origin where
  gone h := by
    simp only [setStatus, setDrafts_ledger, linkArticle_ledger] at h
    exact absurd h hgone
  present _ _ _ := by
    rw [alive_iff]
    refine Or.inl ?_
    simpa [setStatus, setDrafts] using hserved

theorem undisturbed_createArticle {origin : DocumentKey} (hk : k ≠ origin) :
    Undisturbed s (s.createArticle origin) k where
  report := rfl
  takenDown := rfl
  quarantined _ := rfl
  served h := by
    intro a ha horigin
    rcases List.mem_append.mp ha with ha | ha
    · exact h a ha horigin
    · cases List.mem_singleton.mp ha
      exact absurd horigin.symm hk
  alive h := by
    rw [alive_iff] at h ⊢
    rcases h with ⟨a, ha, hlive⟩ | h
    · exact Or.inl ⟨a, List.mem_append_left _ ha, hlive⟩
    · exact Or.inr h

theorem undisturbed_updateArticle {target : Nat} {origin : DocumentKey} (hk : k ≠ origin)
    (horigin : ∀ a ∈ s.articles, a.id = target → a.origin = origin) :
    Undisturbed s (s.updateArticle target origin) k := by
  refine Undisturbed.setArticles fun a ha => ?_
  by_cases hid : a.id = target
  · have hother : a.origin ≠ k := fun h => hk (h.symm.trans (horigin a ha hid))
    simp [hid, hother, Ne.symm hk]
  · simp only [if_neg hid]

theorem settled_approve (h : Settled s) (htidy : Tidy s) {target : Option Nat}
    (hc : Settles s (.approve draftId target)) (hs : s.approveDraft draftId target = some t) :
    Settled t := by
  obtain ⟨draft, hdraft, hs⟩ := Option.bind_eq_some_iff.mp hs
  obtain ⟨hgone, horigin⟩ := hc draft hdraft
  obtain ⟨hmem, rfl⟩ := mem_of_pendingById hdraft
  split at hs
  · cases hs
  · intro k
    cases target with
    | none =>
      cases hs
      by_cases hk : k = draft.origin
      · rw [hk]
        refine settledAt_approved hgone ⟨_, List.mem_append_right _ (List.mem_singleton_self _),
          rfl, rfl⟩
      · exact ((h k).undisturbed (undisturbed_createArticle hk)).undisturbed
          (undisturbed_approved (htidy.createArticle draft.origin) hmem s.nextId hk)
    | some article =>
      have hsame := horigin article rfl
      dsimp only at hs
      split at hs
      · rename_i hfound
        cases hs
        by_cases hk : k = draft.origin
        · rw [hk]
          obtain ⟨a, ha, -⟩ := (Option.any_eq_true _ _).mp hfound
          have hid : a.id = article := by simpa using List.find?_some ha
          refine settledAt_approved hgone
            ⟨_, List.mem_map_of_mem (List.mem_of_find?_eq_some ha), ?_, ?_⟩
          · rw [if_pos hid]
          · rw [if_pos hid]
            rfl
        · exact ((h k).undisturbed (undisturbed_updateArticle hk hsame)).undisturbed
            (undisturbed_approved (htidy.updateArticle hsame) hmem article hk)
      · cases hs

theorem undisturbed_setArticle (htidy : Tidy s) {a : SourceArticle} (ha : a ∈ s.articles)
    (f : SourceArticle → SourceArticle) (hk : k ≠ a.origin) (hf : ∀ b, (f b).origin = b.origin) :
    Undisturbed s (s.setArticles fun b => if b.id = a.id then f b else b) k := by
  refine Undisturbed.setArticles fun b hb => ?_
  by_cases hid : b.id = a.id
  · have hother : b.origin ≠ k := fun h => hk (h.symm.trans (htidy.article_origin hb ha hid))
    simp [hid, hf, hother]
  · simp only [if_neg hid]

theorem settledAt_raised (h : SettledAt s k) {f : SourceArticle → SourceArticle}
    (hgone : s.NotGone k)
    (hf : ∀ b, (f b).origin = b.origin ∧ (b.served = true → (f b).served = true)) :
    SettledAt (s.setArticles f) k where
  gone hreport := absurd hreport hgone
  present revision hreport hexpected := by
    have halive := h.present revision hreport hexpected
    rw [alive_iff] at halive ⊢
    rcases halive with ⟨a, ha, horigin, hserved⟩ | hdraft
    · exact Or.inl ⟨f a, List.mem_map_of_mem ha, (hf a).1.trans horigin, (hf a).2 hserved⟩
    · exact Or.inr hdraft

theorem settled_setArticleStatus (h : Settled s) (htidy : Tidy s) {status : ArticleStatus}
    (hc : Settles s (.setArticleStatus articleId status))
    (hs : s.setArticleStatus articleId status = some t) : Settled t := by
  obtain ⟨a, ha, rfl⟩ := Option.map_eq_some_iff.mp hs
  obtain ⟨hmem, rfl⟩ := mem_of_liveArticle ha
  have hother : ∀ k, k ≠ a.origin → Undisturbed s (s.setArticles fun b =>
      if b.id = a.id then { b with status := status } else b) k := fun k hk =>
    undisturbed_setArticle htidy hmem (fun b => { b with status := status }) hk fun _ => rfl
  intro k
  by_cases hk : k = a.origin
  · subst hk
    by_cases hstatus : status = .published
    · subst hstatus
      refine settledAt_bringBack (settledAt_raised (h a.origin) (hc a hmem rfl) fun b => ?_)
      split
      · exact ⟨rfl, fun hb => by simp [SourceArticle.served] at hb ⊢; exact hb.1⟩
      · exact ⟨rfl, id⟩
    · rw [if_neg hstatus]
      refine settledAt_ruleOut fun hreport b hb horigin => ?_
      obtain ⟨b, hold, rfl⟩ := List.mem_map.mp hb
      by_cases hid : b.id = a.id
      · simp [hid, SourceArticle.served, hstatus]
      · rw [if_neg hid] at horigin ⊢
        exact (h a.origin).gone hreport b hold horigin
  · have hset := (h k).undisturbed (hother k hk)
    split
    · exact hset.undisturbed (undisturbed_bringBack hk)
    · exact hset.undisturbed (undisturbed_ruleOut hk)

theorem settled_restoreVersion (h : Settled s) (htidy : Tidy s)
    (hc : Settles s (.restoreVersion articleId)) (hs : s.restoreVersion articleId = some t) :
    Settled t := by
  obtain ⟨a, ha, rfl⟩ := Option.map_eq_some_iff.mp hs
  obtain ⟨hmem, rfl⟩ := mem_of_liveArticle ha
  intro k
  by_cases hk : k = a.origin
  · subst hk
    refine settledAt_bringBack (settledAt_raised (h a.origin) (hc a hmem rfl) fun b => ?_)
    split
    · exact ⟨rfl, fun hb => by simp [SourceArticle.served] at hb ⊢; exact hb.2⟩
    · exact ⟨rfl, id⟩
  · exact ((h k).undisturbed (undisturbed_setArticle htidy hmem
      (fun b => { b with lifecycleActive := true }) hk fun _ => rfl)).undisturbed
        (undisturbed_bringBack hk)

end Decisions

/-! ### Every step -/

theorem Tidy.step {s t : SourceState} {a : SourceAction} (h : Tidy s) (hc : Settles s a)
    (hs : SourceStep s a t) : Tidy t := by
  rw [sourceStep_iff] at hs
  cases a with
  | beginWalk scopeId full =>
    simp only [nextSource] at hs
    split at hs
    · cases hs
      exact h.congr rfl rfl rfl
    · cases hs
  | item change outcome =>
    obtain ⟨w, -, rfl⟩ := Option.map_eq_some_iff.mp hs
    exact h.processItem w change outcome
  | abortWalk =>
    obtain ⟨w, -, rfl⟩ := Option.map_eq_some_iff.mp hs
    exact h.congr rfl rfl rfl
  | endWalk =>
    obtain ⟨w, -, rfl⟩ := Option.map_eq_some_iff.mp hs
    exact h.endWalk w
  | approve draftId target =>
    obtain ⟨draft, hdraft, hs⟩ := Option.bind_eq_some_iff.mp hs
    obtain ⟨-, horigin⟩ := hc draft hdraft
    split at hs
    · cases hs
    · cases target with
      | none =>
        cases hs
        exact ((h.createArticle draft.origin).linkArticle draft s.nextId).setStatus _ _
      | some article =>
        dsimp only at hs
        split at hs
        · cases hs
          exact ((h.updateArticle (horigin article rfl)).linkArticle draft article).setStatus _ _
        · cases hs
  | reject draftId =>
    obtain ⟨draft, -, rfl⟩ := Option.map_eq_some_iff.mp hs
    exact (h.setStatus draftId .rejected).ruleOut draft.origin
  | commitCandidates draftId children =>
    obtain ⟨parent, -, rfl⟩ := Option.map_eq_some_iff.mp hs
    have hnext : s.nextId ≤ s.nextId + children + 1 := by omega
    refine ((h.setStatus draftId .rejected).addDrafts (k := parent.origin)
      (s.nextId + children + 1) hnext ?_ ?_).congr rfl rfl rfl
    · intro d hd
      obtain ⟨i, hi, rfl⟩ := List.mem_map.mp hd
      have hlt := List.mem_range.mp hi
      exact ⟨Nat.le_add_right _ _, by show s.nextId + i < _; omega, rfl⟩
    · intro d hd k hk
      obtain ⟨i, -, rfl⟩ := List.mem_map.mp hd
      cases hk
  | setArticleStatus articleId status =>
    obtain ⟨a, -, rfl⟩ := Option.map_eq_some_iff.mp hs
    have hset := h.setArticles (f := fun b =>
      if b.id = articleId then { b with status := status } else b)
      fun b _ => by split <;> exact ⟨rfl, rfl⟩
    split
    · exact hset.bringBack a.origin
    · exact hset.ruleOut a.origin
  | restoreVersion articleId =>
    obtain ⟨a, -, rfl⟩ := Option.map_eq_some_iff.mp hs
    have hset := h.setArticles (f := fun b =>
      if b.id = articleId then { b with lifecycleActive := true } else b)
      fun b _ => by split <;> exact ⟨rfl, rfl⟩
    exact hset.bringBack a.origin

/-- **One step.** -/
theorem Settled.step {s t : SourceState} {a : SourceAction} (h : Settled s) (htidy : Tidy s)
    (hc : Settles s a) (hs : SourceStep s a t) : Settled t := by
  rw [sourceStep_iff] at hs
  cases a with
  | beginWalk scopeId full =>
    simp only [nextSource] at hs
    split at hs
    · cases hs
      exact fun k => (h k).undisturbed (.grown rfl rfl rfl fun _ => id)
    · cases hs
  | item change outcome =>
    obtain ⟨w, -, rfl⟩ := Option.map_eq_some_iff.mp hs
    exact settled_item h htidy.linked hc
  | abortWalk =>
    obtain ⟨w, -, rfl⟩ := Option.map_eq_some_iff.mp hs
    exact fun k => (h k).undisturbed (.grown rfl rfl rfl fun _ => id)
  | endWalk =>
    obtain ⟨w, hw, rfl⟩ := Option.map_eq_some_iff.mp hs
    have hsweep := settled_sweep (s.staleDocuments w) h htidy.linked (hc w hw)
    exact fun k => (hsweep k).undisturbed (.grown rfl rfl rfl fun _ => id)
  | approve draftId target => exact settled_approve h htidy hc hs
  | reject draftId => exact settled_reject h htidy hs
  | commitCandidates draftId children => exact settled_commitCandidates h htidy hs
  | setArticleStatus articleId status => exact settled_setArticleStatus h htidy hc hs
  | restoreVersion articleId => exact settled_restoreVersion h htidy hc hs

theorem tidy_empty : Tidy emptySource where
  linked d hd := by cases hd
  drafts p hp := by cases hp
  articles p hp := by cases hp

theorem settled_empty : Settled emptySource := by
  intro k
  constructor
  · intro h
    cases h
  · intro revision h
    cases h

/-- **Removal and return.**  A run within `Settles` leaves every document settled. -/
theorem settled_of_run {tr : List (SourceState × SourceAction)} {s : SourceState}
    (r : Run SourceInitial SourceStep tr s) (hc : Throughout Settles tr) : Settled s := by
  have hboth : Tidy s ∧ Settled s := r.invariant (I := fun s => Tidy s ∧ Settled s)
    (by rintro _ rfl; exact ⟨tidy_empty, settled_empty⟩)
    (fun _ _ _ h hc hs => ⟨h.1.step hc hs, h.2.step h.1 hc hs⟩) hc
  exact hboth.2

/-! ### A document that returns -/

def handbookTombstone : NormalizedChange :=
  { handbookAt "1" with state := .deleted, revision := none, mimeType := none, hasMetadata := false }

/-- The handbook is imported, approved, deleted at the provider, and there again. -/
def thereAndBack (revision contentHash : String) : List SourceAction :=
  [.beginWalk 1 true, .item (handbookAt "1") (.done "a" true), .endWalk, .approve 0 none,
    .beginWalk 1 false, .item handbookTombstone (.done "" false), .endWalk,
    .beginWalk 1 true, .item (handbookAt revision) (.done contentHash true), .endWalk]

theorem newRevision_plays :
    (play takeSource [] emptySource (thereAndBack "2" "b")).isSome = true := by
  decide +kernel

/-- At a new revision with new content it is drafted again. -/
theorem settled_of_run_newRevision :
    Settled ((play takeSource [] emptySource (thereAndBack "2" "b")).get newRevision_plays).2 :=
  settled_of_run (run_play initial_emptySource newRevision_plays) (by decide +kernel)

theorem sameRevision_plays :
    (play takeSource [] emptySource (thereAndBack "1" "a")).isSome = true := by
  decide +kernel

/-- At the old one it has no article and no draft after the walk. -/
theorem returned_document_lost :
    ¬ ∀ (tr : List (SourceState × SourceAction)) (s : SourceState),
      Run SourceInitial SourceStep tr s → tr.head?.map Prod.snd = some .endWalk → Settled s := by
  intro h
  have hsettled := h _ _ (run_play initial_emptySource sameRevision_plays) (by decide +kernel)
    (handbookAt "1").key
  exact absurd (hsettled.present (some "1") (by decide +kernel) (by decide +kernel))
    (by decide +kernel)

end QnscKb.Sync
