import QnscKb.Review.Queue
import QnscKb.Access.Agreement

/-!
# Review — Coverage of the queue

Listing, opening, deciding and counting pending drafts are four predicates over one table.
-/

namespace QnscKb.Review
open QnscKb.Access QnscKb.Where

/-- The draft is on some page of `list_drafts`. -/
def Listed (like : String → String → Bool) (table : DraftTable) (u : User)
    (status : Option DraftStatus) (d : PendingDraft) : Prop :=
  ∃ offset, ∃ rows, listDrafts like table u status none offset none = some rows ∧ d ∈ rows

/-- What the queue owes its reader. -/
structure QueueExact (like : String → String → Bool) (table : DraftTable) (u : User) : Prop where
  opens : ∀ status d, Listed like table u status d → getDraftForUser table d.id u = some d
  decides : ∀ d ∈ table.rows, d.status = .pending → d.companyDomain = u.companyDomain →
    canApproveDraft u d = true → Listed like table u (some .pending) d
  counts : ∀ n, countDrafts like table u (some .pending) none = some n →
    countPendingForUser table u ≤ n

variable {like : String → String → Bool} {table : DraftTable} {u : User} {scope : QueueScope}

variable {d : PendingDraft}

theorem listed_iff (h : draftQueueScope u = some scope) {status : Option DraftStatus} :
    Listed like table u status d ↔
      d ∈ table.rows ∧ status.all (fun s => d.status == s) = true ∧ inQueue u d = true := by
  simp only [Listed, listDrafts, h, Option.map_some, Option.some.injEq, exists_eq_left',
    Option.getD_none]
  rw [exists_mem_page (by decide), newestFirst, List.mem_insertionSort, mem_select,
    admits_draftScopeFilters h, Bool.and_eq_true]

theorem getDraftForUser_iff (hd : d ∈ table.rows) :
    getDraftForUser table d.id u = some d ↔ opensDraft u d = true := by
  have hfind : getDraftForUser table d.id u = if admits (openFilters u) d then some d else none :=
    find?_key_and table.ids hd _
  rw [← admits_openFilters, hfind]
  simp

theorem companyWide_of_maySelfApprove (h : maySelfApprove u = true) : companyWide u = true := by
  simp only [maySelfApprove, companyWide, Bool.or_eq_true, List.any_eq_true,
    Bool.and_eq_true] at h ⊢
  exact h.imp_right fun ⟨role, hr, hrole, _⟩ => ⟨role, hr, hrole⟩

/-- A draft the queue lists and its reader cannot open. -/
inductive Stranger (u : User) (d : PendingDraft) : Prop where
  /-- A reader without departments: the queue reads no restriction, opening reads nothing. -/
  | noDepartments (notPublisher : isGlobalPublisher u = false)
      (notGovernor : grants u .governanceRead .global = false)
      (company : ofCompany u d = true) (notWide : companyWide u = false)
      (noNames : memberOrLegacyNames u = []) (unassigned : unassigned d = true)
      (notAuthored : authored u d = false)
  /-- A reader whose company text is empty: the queue drops the tenant test. -/
  | noCompany (notPublisher : isGlobalPublisher u = false)
      (notGovernor : grants u .governanceRead .global = false)
      (empty : u.companyDomain = "") (foreign : ofCompany u d = false)
      (within : scopedTo u d = true)

theorem stranger_iff : inQueue u d = true ∧ opensDraft u d = false ↔ Stranger u d := by
  constructor
  · rintro ⟨hq, ho⟩
    simp only [opensDraft, Bool.or_eq_false_iff, Bool.and_eq_false_iff] at ho
    obtain ⟨⟨hg, hp⟩, ho⟩ := ho
    simp only [inQueue, hp, Bool.false_or, Bool.and_eq_true, Bool.or_eq_true, beq_iff_eq] at hq
    obtain ⟨htenant, hscoped⟩ := hq
    cases hc : ofCompany u d with
    | false =>
      exact .noCompany hp hg (htenant.resolve_right (by simp [hc])) hc hscoped
    | true =>
      obtain ⟨⟨⟨hw, hm⟩, ha⟩, hn⟩ := ho.resolve_left (by simp [hc])
      have hlead : maySelfApprove u = false := Bool.eq_false_iff.mpr fun hlead => by
        rw [companyWide_of_maySelfApprove hlead] at hw
        cases hw
      simp only [scopedTo, hlead, hm, hn, Bool.or_false] at hscoped
      cases he : (memberOrLegacyNames u).isEmpty with
      | false => simp [he] at hscoped
      | true =>
        rw [he] at hscoped
        exact .noDepartments hp hg hc hw (List.isEmpty_iff.mp he) hscoped ha
  · intro h
    cases h with
    | noDepartments hp hg hc hw hn hun ha =>
      have hm : mine u d = false := by
        simp only [unassigned, beq_iff_eq] at hun
        simp [mine, hun]
      simp [inQueue, opensDraft, scopedTo, inNames, inDepartments_nil, hp, hg, hc, hw, hn, hun,
        ha, hm]
    | noCompany hp hg he hc hs => simp [inQueue, opensDraft, hp, hg, he, hc, hs]

/-- A pending draft assigned to the reader outside the departments he is scoped to. -/
structure Hidden (u : User) (d : PendingDraft) : Prop where
  pending : d.status = .pending
  company : ofCompany u d = true
  assigned : mine u d = true
  notPublisher : isGlobalPublisher u = false
  notLead : maySelfApprove u = false
  names : memberOrLegacyNames u ≠ []
  elsewhere : inNames u d = false

theorem hidden_iff :
    d.status = .pending ∧ ofCompany u d = true ∧ canApproveDraft u d = true ∧
      inQueue u d = false ↔ Hidden u d := by
  constructor
  · rintro ⟨hs, hc, ha, hq⟩
    simp only [inQueue, hc, Bool.or_true, Bool.true_and, Bool.or_eq_false_iff, scopedTo] at hq
    obtain ⟨hp, hl, hq⟩ := hq
    have hm : mine u d = true := by simpa [canApproveDraft, hl, mine] using ha
    cases he : (memberOrLegacyNames u).isEmpty with
    | true => simp [he, hm] at hq
    | false =>
      rw [he] at hq
      exact ⟨hs, hc, hm, hp, hl, fun hn => by simp [hn] at he, hq⟩
  · rintro ⟨hs, hc, hm, hp, hl, hne, hn⟩
    have he : (memberOrLegacyNames u).isEmpty = false := by
      simpa [List.isEmpty_iff, Bool.eq_false_iff] using hne
    have hm' : (d.assignedApproverId == some u.id) = true := hm
    refine ⟨hs, hc, by simp [canApproveDraft, hm'], ?_⟩
    simp [inQueue, scopedTo, hp, hl, he, hn]

/-! ### The home count -/

/-- The count reads every company while the queue reads one. -/
def CountsAbroad (u : User) : Prop :=
  canReview u = true ∧ isGlobalPublisher u = false ∧
    (grants u .governanceRead .global = true ∨ grants u .articleReview .global = true)

/-- A pending draft the count takes abroad and the queue leaves out. -/
def overcounted (u : User) (d : PendingDraft) : Bool :=
  d.status == .pending && (unassigned d || mine u d) &&
    (u.companyDomain != "" && !ofCompany u d ||
      !maySelfApprove u && !(memberOrLegacyNames u).isEmpty && !inNames u d)

/-- A pending draft of the queue that awaits another approver. -/
def awaitsOther (u : User) (d : PendingDraft) : Bool :=
  d.status == .pending && (u.companyDomain == "" || ofCompany u d) &&
    (maySelfApprove u || inNames u d) && !(unassigned d || mine u d)

theorem countsGlobally_iff (hp : isGlobalPublisher u = false) : countsGlobally u = true ↔
    grants u .governanceRead .global = true ∨ grants u .articleReview .global = true := by
  have hp' : grants u .articlePublish .global = false := by simpa [isGlobalPublisher] using hp
  simp [countsGlobally, hp']

theorem counted_not_listed (hp : isGlobalPublisher u = false) (hg : countsGlobally u = true)
    (d : PendingDraft) :
    (admits (countFilters u) d && !(d.status == .pending && inQueue u d)) = overcounted u d := by
  rw [admits_countFilters, hg]
  simp only [overcounted, inQueue, hp, scopedTo, bne]
  cases hs : d.status == .pending with
  | false => simp
  | true =>
    generalize (memberOrLegacyNames u).isEmpty = noNames
    generalize (u.companyDomain == "") = noCompany
    cases unassigned d <;> cases mine u d <;> cases noCompany <;> cases ofCompany u d <;>
      cases maySelfApprove u <;> cases noNames <;> simp

theorem listed_not_counted (hp : isGlobalPublisher u = false) (hg : countsGlobally u = true)
    (d : PendingDraft) :
    (d.status == .pending && inQueue u d && !admits (countFilters u) d) = awaitsOther u d := by
  rw [admits_countFilters, hg]
  simp only [awaitsOther, inQueue, hp, scopedTo]
  cases hs : d.status == .pending with
  | false => simp
  | true =>
    cases he : (memberOrLegacyNames u).isEmpty with
    | true =>
      have hn : inNames u d = false := by
        rw [inNames, List.isEmpty_iff.mp he, inDepartments_nil]
      cases unassigned d <;> cases mine u d <;> cases maySelfApprove u <;> simp [hn]
    | false => cases unassigned d <;> cases mine u d <;> simp

theorem listed_of_counted (hg : countsGlobally u = false) (hk : ¬ Hidden u d)
    (h : admits (countFilters u) d = true) : (d.status == .pending && inQueue u d) = true := by
  rw [admits_countFilters, hg, if_neg Bool.false_ne_true] at h
  simp only [Bool.and_eq_true, beq_iff_eq] at h ⊢
  obtain ⟨hs, hc, h⟩ := h
  refine ⟨hs, ?_⟩
  cases hl : maySelfApprove u with
  | true => simp [inQueue, scopedTo, hc, hl]
  | false =>
    rw [hl, if_neg Bool.false_ne_true, Bool.or_eq_true, Bool.and_eq_true] at h
    rcases h with hm | ⟨hun, hn⟩
    · by_contra hq
      have ha : canApproveDraft u d = true := by
        simp only [mine] at hm
        simp [canApproveDraft, hm]
      exact hk (hidden_iff.mp ⟨hs, hc, ha, Bool.eq_false_iff.mpr hq⟩)
    · have he : (memberOrLegacyNames u).isEmpty = false := by
        cases he : (memberOrLegacyNames u).isEmpty with
        | false => rfl
        | true =>
          rw [inNames, List.isEmpty_iff.mp he, inDepartments_nil] at hn
          cases hn
      simp [inQueue, scopedTo, hc, he, hn]

theorem listed_of_publisher (hp : isGlobalPublisher u = true)
    (h : admits (countFilters u) d = true) : (d.status == .pending && inQueue u d) = true := by
  rw [admits_countFilters, Bool.and_eq_true] at h
  simp [inQueue, hp, h.1]

theorem admits_pending (h : draftQueueScope u = some scope) (d : PendingDraft) :
    admits (draftScopeFilters like (some .pending) scope none) d =
      (d.status == .pending && inQueue u d) := by
  rw [admits_draftScopeFilters h]
  rfl

/-- **The home count against the queue.** -/
theorem counted_le_listed_iff (h : draftQueueScope u = some scope)
    (hk : ∀ d ∈ table.rows, ¬ Hidden u d) :
    countPendingForUser table u ≤
        total (draftScopeFilters like (some .pending) scope none) table.rows ↔
      (CountsAbroad u →
        table.rows.countP (overcounted u) ≤ table.rows.countP (awaitsOther u)) := by
  cases hr : canReview u with
  | false =>
    simp [countPendingForUser, hr, CountsAbroad]
  | true =>
    simp only [countPendingForUser, hr, Bool.not_true, Bool.false_eq_true, if_false]
    cases hp : isGlobalPublisher u with
    | true =>
      refine iff_of_true (total_le_total fun d _ hd => ?_) fun hab => ?_
      · rw [admits_pending h]
        exact listed_of_publisher hp hd
      · rw [CountsAbroad, hp] at hab
        cases hab.2.1
    | false =>
      cases hg : countsGlobally u with
      | false =>
        refine iff_of_true (total_le_total fun d hd hc => ?_) fun hab => ?_
        · rw [admits_pending h]
          exact listed_of_counted hg (hk d hd) hc
        · rw [(countsGlobally_iff hp).mpr hab.2.2] at hg
          cases hg
      | true =>
        have hab : CountsAbroad u := ⟨hr, hp, (countsGlobally_iff hp).mp hg⟩
        rw [total_le_total_iff]
        simp only [admits_pending h, counted_not_listed hp hg, listed_not_counted hp hg]
        exact ⟨fun hle _ => hle, fun himp => himp hab⟩

/-- **The queue shows exactly what its reader may open and decide** off the three kinds. -/
theorem queue_exact_iff (like : String → String → Bool) (table : DraftTable) (u : User)
    (h : (draftQueueScope u).isSome = true) :
    QueueExact like table u ↔
      (∀ d ∈ table.rows, ¬ Stranger u d) ∧ (∀ d ∈ table.rows, ¬ Hidden u d) ∧
        (CountsAbroad u →
          table.rows.countP (overcounted u) ≤ table.rows.countP (awaitsOther u)) := by
  obtain ⟨scope, hs⟩ := Option.isSome_iff_exists.mp h
  have hcount : ∀ n, countDrafts like table u (some .pending) none = some n ↔
      total (draftScopeFilters like (some .pending) scope none) table.rows = n := fun n => by
    simp [countDrafts, hs]
  constructor
  · rintro ⟨opens, decides, counts⟩
    have hhidden : ∀ d ∈ table.rows, ¬ Hidden u d := fun d hd hk => by
      obtain ⟨hp, hc, ha, hq⟩ := hidden_iff.mpr hk
      have hlisted := (listed_iff hs).mp (decides d hd hp (beq_iff_eq.mp hc) ha)
      rw [hq] at hlisted
      cases hlisted.2.2
    refine ⟨fun d hd hk => ?_, hhidden, ?_⟩
    · obtain ⟨hq, ho⟩ := stranger_iff.mpr hk
      have hopen := opens none d ((listed_iff hs).mpr ⟨hd, rfl, hq⟩)
      rw [getDraftForUser_iff hd, ho] at hopen
      cases hopen
    · exact (counted_le_listed_iff hs hhidden).mp (counts _ ((hcount _).mpr rfl))
  · rintro ⟨hstranger, hhidden, habroad⟩
    refine ⟨fun status d hl => ?_, fun d hd hp hc ha => ?_, fun n hn => ?_⟩
    · obtain ⟨hd, -, hq⟩ := (listed_iff hs).mp hl
      rw [getDraftForUser_iff hd]
      by_contra ho
      exact hstranger d hd (stranger_iff.mp ⟨hq, Bool.eq_false_iff.mpr ho⟩)
    · refine (listed_iff hs).mpr ⟨hd, by simp [hp], ?_⟩
      by_contra hq
      exact hhidden d hd (hidden_iff.mp ⟨hp, beq_iff_eq.mpr hc, ha, Bool.eq_false_iff.mpr hq⟩)
    · rw [← (hcount n).mp hn]
      exact (counted_le_listed_iff hs hhidden).mpr habroad

def floatingReviewer : User where
  id := 300
  companyDomain := "qnsc.vn"
  dept := none
  role := "Reviewer"
  departments := []
  departmentOwnerships := []
  roles := [roleOf "Reviewer" [⟨.articleReview, .company⟩]]

def financeQueue : DraftTable where
  rows := [⟨1, 0, "Policy", "policy.docx", "qnsc.vn", some "Finance", .pending, some 200, none⟩]
  ids := by decide

theorem queue_exact_iff_floatingReviewer :
    QueueExact (fun _ _ => false) financeQueue floatingReviewer ↔
      (∀ d ∈ financeQueue.rows, ¬ Stranger floatingReviewer d) ∧
        (∀ d ∈ financeQueue.rows, ¬ Hidden floatingReviewer d) ∧
        (CountsAbroad floatingReviewer →
          financeQueue.rows.countP (overcounted floatingReviewer) ≤
            financeQueue.rows.countP (awaitsOther floatingReviewer)) :=
  queue_exact_iff (fun _ _ => false) financeQueue floatingReviewer (by decide)

/-- The queue lists a draft to a reviewer who cannot open it. -/
theorem listed_draft_does_not_open :
    ¬ ∀ (like : String → String → Bool) (table : DraftTable) (u : User),
      (draftQueueScope u).isSome = true → QueueExact like table u := by
  intro h
  have hopen := (h (fun _ _ => false) financeQueue floatingReviewer (by decide)).opens none
    ⟨1, 0, "Policy", "policy.docx", "qnsc.vn", some "Finance", .pending, some 200, none⟩
    ⟨0, _, rfl, by decide⟩
  exact absurd hopen (by decide)

end QnscKb.Review
