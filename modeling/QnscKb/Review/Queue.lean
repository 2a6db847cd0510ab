import QnscKb.Access.ArticleFilters

/-!
# Review — Queue

The review queue: what it lists (`GovernanceService._draft_queue_scope`,
`GovernanceRepository._draft_scope_filters`), what opens by id (`get_draft_for_user`), who decides
(`_can_approve_draft`) and what the home card counts (`count_pending_for_user`).  `like` is the
database's `ILIKE`.
-/

namespace QnscKb.Review
open QnscKb.Access QnscKb.Where

inductive DraftStatus
  | draft | pending | approved | rejected
  deriving DecidableEq, Repr

/-- The columns of `PendingDraft` the queue reads. -/
structure PendingDraft where
  id : Id
  createdAt : Nat
  title : String
  sourceRef : String
  companyDomain : String
  dept : Option String
  status : DraftStatus
  createdBy : Option Id
  assignedApproverId : Option Id
  deriving DecidableEq, Repr

/-- The table, with its primary key. -/
structure DraftTable where
  rows : List PendingDraft
  ids : (rows.map (·.id)).Nodup

/-- `_may_self_approve`, `_is_company_governance_lead`: an Admin or CEO of the company. -/
def maySelfApprove (u : User) : Bool :=
  privilegedNames.contains u.role ||
    u.roles.any fun role => role.active != some false && privilegedNames.contains role.name &&
      (role.companyDomain == none || role.companyDomain == some u.companyDomain)

def canApproveDraft (u : User) (d : PendingDraft) : Bool :=
  d.assignedApproverId == some u.id || maySelfApprove u

def isGlobalPublisher (u : User) : Bool :=
  hasPermission u .articlePublish none .global

/-! ### Listing -/

/-- The keyword arguments `_draft_queue_scope` resolves; an absent list is empty, as the filters
test it by truth value. -/
structure QueueScope where
  companyDomain : Option String
  depts : List String
  assignedApproverId : Option Id
  deriving DecidableEq

def canCompanyReview (u : User) : Bool :=
  [PermissionKey.articleReview, .articlePublish, .governanceRead].any fun key =>
    hasPermission u key none .company

/-- `_draft_queue_scope`; `none` is the 403. -/
def draftQueueScope (u : User) : Option QueueScope :=
  if isGlobalPublisher u then some ⟨none, [], none⟩
  else if canCompanyReview u then
    if maySelfApprove u then some ⟨some u.companyDomain, [], none⟩
    else some ⟨some u.companyDomain,
      (memberOrLegacyNames u).dedup.insertionSort (fun x y => x ≤ y), some u.id⟩
  else none

/-- `PendingDraft.dept.in_(names)`. -/
def inDepartments (names : List String) (d : PendingDraft) : Bool :=
  d.dept.any fun name => names.contains name

/-- The search conjunct: one of three columns matches. -/
def searchFilter (like : String → String → Bool) (search : Option String) :
    List (PendingDraft → Bool) :=
  match search with
  | none => []
  | some text =>
    if strip text = "" then []
    else [fun d => like (strip text) d.title || like (strip text) d.sourceRef ||
      d.dept.any fun name => like (strip text) name]

def draftScopeFilters (like : String → String → Bool) (status : Option DraftStatus)
    (scope : QueueScope) (search : Option String) : List (PendingDraft → Bool) :=
  searchFilter like search ++
    (match status with
      | some s => [fun d => d.status == s]
      | none => []) ++
    (match scope.companyDomain with
      | some company => if company = "" then [] else [fun d => d.companyDomain == company]
      | none => []) ++
    (if scope.depts.isEmpty then [] else [inDepartments scope.depts]) ++
    match scope.assignedApproverId with
      | some approver =>
        [fun d => d.assignedApproverId == none || d.assignedApproverId == some approver ||
          (if scope.depts.isEmpty then false else inDepartments scope.depts d)]
      | none => []

def DRAFT_PAGE_LIMIT : Nat := 500

def newestFirst (rows : List PendingDraft) : List PendingDraft :=
  rows.insertionSort fun x y =>
    y.createdAt < x.createdAt ∨ x.createdAt = y.createdAt ∧ y.id ≤ x.id

/-- `list_drafts`, service and repository. -/
def listDrafts (like : String → String → Bool) (table : DraftTable) (u : User)
    (status : Option DraftStatus) (limit : Option Nat) (offset : Nat) (search : Option String) :
    Option (List PendingDraft) :=
  (draftQueueScope u).map fun scope =>
    page (limit.getD DRAFT_PAGE_LIMIT) offset
      (newestFirst (select (draftScopeFilters like status scope search) table.rows))

/-- `count_drafts`, service and repository. -/
def countDrafts (like : String → String → Bool) (table : DraftTable) (u : User)
    (status : Option DraftStatus) (search : Option String) : Option Nat :=
  (draftQueueScope u).map fun scope =>
    total (draftScopeFilters like status scope search) table.rows

/-- `company_wide`: an active role named Admin or CEO, of any company. -/
def companyWide (u : User) : Bool :=
  privilegedNames.contains u.role ||
    u.roles.any fun role => role.active != some false && privilegedNames.contains role.name

/-- The conjuncts `get_draft_for_user` adds to the id. -/
def openFilters (u : User) : List (PendingDraft → Bool) :=
  if hasPermission u .governanceRead none .global || hasPermission u .articlePublish none .global
  then []
  else
    [fun d => d.companyDomain == u.companyDomain] ++
      if companyWide u then []
      else [fun d => d.assignedApproverId == some u.id || d.createdBy == some u.id ||
        (if (memberOrLegacyNames u).isEmpty then false else inDepartments (memberOrLegacyNames u) d)]

def getDraftForUser (table : DraftTable) (id : Id) (u : User) : Option PendingDraft :=
  table.rows.find? fun d => d.id == id && admits (openFilters u) d

/-- `can_review` of the count. -/
def canReview (u : User) : Bool :=
  [PermissionKey.articleReview, .articlePublish].any fun key =>
    [Scope.company, .global].any fun scope => hasPermission u key none scope

/-- `global_access` of the count. -/
def countsGlobally (u : User) : Bool :=
  [PermissionKey.governanceRead, .articleReview, .articlePublish].any fun key =>
    hasPermission u key none .global

/-- The conjuncts of `count_pending_for_user`. -/
def countFilters (u : User) : List (PendingDraft → Bool) :=
  [fun d => d.status == .pending] ++
    if countsGlobally u then
      [fun d => d.assignedApproverId == none || d.assignedApproverId == some u.id]
    else
      [fun d => d.companyDomain == u.companyDomain,
        if maySelfApprove u then
          fun d => d.assignedApproverId == none || d.assignedApproverId == some u.id
        else fun d => d.assignedApproverId == some u.id ||
          d.assignedApproverId == none &&
            (if (memberOrLegacyNames u).isEmpty then false
              else inDepartments (memberOrLegacyNames u) d)]

def countPendingForUser (table : DraftTable) (u : User) : Nat :=
  if !canReview u then 0 else total (countFilters u) table.rows

/-! ### What each of them asks of a draft -/

section Tests

variable (u : User) (d : PendingDraft)

/-- The department names the reader is scoped to. -/
def inNames : Bool := inDepartments (memberOrLegacyNames u) d

def unassigned : Bool := d.assignedApproverId == none

def mine : Bool := d.assignedApproverId == some u.id

def authored : Bool := d.createdBy == some u.id

def ofCompany : Bool := d.companyDomain == u.companyDomain

/-- The queue of one who is no global publisher; an empty list of names is no restriction. -/
def scopedTo : Bool :=
  maySelfApprove u ||
    if (memberOrLegacyNames u).isEmpty then unassigned d || mine u d else inNames u d

def inQueue : Bool :=
  isGlobalPublisher u || (u.companyDomain == "" || ofCompany u d) && scopedTo u d

def opensDraft : Bool :=
  grants u .governanceRead .global || isGlobalPublisher u ||
    ofCompany u d && (companyWide u || mine u d || authored u d || inNames u d)

end Tests

theorem inDepartments_nil (d : PendingDraft) : inDepartments [] d = false := by
  cases h : d.dept <;> simp [inDepartments, h]

theorem inDepartments_congr {ns ms : List String} (h : ∀ n, n ∈ ns ↔ n ∈ ms) (d : PendingDraft) :
    inDepartments ns d = inDepartments ms d := by
  cases hd : d.dept with
  | none => simp [inDepartments, hd]
  | some n => rw [Bool.eq_iff_iff]; simp [inDepartments, hd, h n]

theorem ite_inDepartments (ns : List String) (d : PendingDraft) :
    (if ns.isEmpty then false else inDepartments ns d) = inDepartments ns d := by
  cases ns with
  | nil => simp [inDepartments_nil]
  | cons n ns => simp

theorem admits_scope (like : String → String → Bool) (status : Option DraftStatus)
    (scope : QueueScope) (d : PendingDraft) :
    admits (draftScopeFilters like status scope none) d =
      (status.all (fun s => d.status == s) &&
        scope.companyDomain.all (fun c => c == "" || d.companyDomain == c) &&
        (scope.depts.isEmpty || inDepartments scope.depts d) &&
        scope.assignedApproverId.all fun a => d.assignedApproverId == none ||
          d.assignedApproverId == some a || inDepartments scope.depts d) := by
  obtain ⟨company, depts, approver⟩ := scope
  simp only [draftScopeFilters, searchFilter, ite_inDepartments, admits_append]
  refine congrArg₂ _ (congrArg₂ _ (congrArg₂ _ ?_ ?_) ?_) ?_
  · cases status <;> simp
  · cases company with
    | none => rfl
    | some c =>
      by_cases hc : c = ""
      · simp [hc]
      · simp [hc, beq_eq_false_iff_ne.mpr hc]
  · cases depts <;> simp
  · cases approver <;> simp

theorem mem_sortedNames {ns : List String} {n : String} :
    n ∈ ns.dedup.insertionSort (fun x y => x ≤ y) ↔ n ∈ ns := by
  rw [List.mem_insertionSort, List.mem_dedup]

theorem sortedNames_isEmpty (ns : List String) :
    (ns.dedup.insertionSort fun x y => x ≤ y).isEmpty = ns.isEmpty := by
  rw [Bool.eq_iff_iff, List.isEmpty_iff, List.isEmpty_iff, List.eq_nil_iff_forall_not_mem,
    List.eq_nil_iff_forall_not_mem]
  exact forall_congr' fun n => not_congr mem_sortedNames

theorem admits_draftScopeFilters {like : String → String → Bool} {u : User} {scope : QueueScope}
    (h : draftQueueScope u = some scope) (status : Option DraftStatus) (d : PendingDraft) :
    admits (draftScopeFilters like status scope none) d =
      (status.all (fun s => d.status == s) && inQueue u d) := by
  rw [admits_scope]
  unfold draftQueueScope at h
  cases hp : isGlobalPublisher u with
  | true =>
    simp only [hp, if_true, Option.some.injEq] at h
    subst h
    simp [inQueue, hp]
  | false =>
    simp only [hp, Bool.false_eq_true, if_false] at h
    cases hr : canCompanyReview u with
    | false => simp [hr] at h
    | true =>
      cases hl : maySelfApprove u with
      | true =>
        simp only [hr, hl, if_true, Option.some.injEq] at h
        subst h
        simp [inQueue, scopedTo, ofCompany, hp, hl]
      | false =>
        simp only [hr, hl, if_true, Bool.false_eq_true, if_false, Option.some.injEq] at h
        subst h
        simp only [sortedNames_isEmpty, inDepartments_congr fun _ => mem_sortedNames]
        -- with names the assignment clause repeats the department clause
        cases he : (memberOrLegacyNames u).isEmpty with
        | true =>
          simp [inQueue, scopedTo, ofCompany, unassigned, mine, hp, hl,
            List.isEmpty_iff.mp he, inDepartments_nil, Bool.and_assoc]
        | false =>
          cases hin : inDepartments (memberOrLegacyNames u) d <;>
            simp [inQueue, scopedTo, ofCompany, inNames, hp, hl, he, hin]

theorem admits_openFilters (u : User) (d : PendingDraft) :
    admits (openFilters u) d = opensDraft u d := by
  simp only [openFilters, opensDraft, isGlobalPublisher, hasPermission_global, ite_inDepartments]
  cases grants u .governanceRead .global <;> cases grants u .articlePublish .global <;>
    cases companyWide u <;> simp [ofCompany, mine, authored, inNames]

theorem admits_countFilters (u : User) (d : PendingDraft) :
    admits (countFilters u) d =
      (d.status == .pending &&
        if countsGlobally u then unassigned d || mine u d
        else ofCompany u d && if maySelfApprove u then unassigned d || mine u d
          else mine u d || unassigned d && inNames u d) := by
  simp only [countFilters, ite_inDepartments]
  cases countsGlobally u <;> cases maySelfApprove u <;>
    simp [ofCompany, unassigned, mine, inNames]

end QnscKb.Review
