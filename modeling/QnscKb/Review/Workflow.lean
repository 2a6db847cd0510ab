import QnscKb.Lib.Runs
import QnscKb.Review.Queue

/-!
# Review — Workflow

The life of a draft (`GovernanceService.submit_draft`, `assign_approver`, `approve_draft`,
`reject_draft`): who may act is decided from the rows of the users, roles and departments as they
stand, and those change in between.  A service call is its checks in their order, with the draft it
leaves, or its refusal.
-/

namespace QnscKb.Review
open QnscKb.Access QnscKb.Where QnscKb.Runs

/-! ### Rows -/

/-- A user row with its sign-in flag. -/
structure Account extends User where
  active : Bool
  deriving DecidableEq

structure ApproverRule where
  companyDomain : String
  dept : String
  approverId : Id
  active : Bool
  deriving DecidableEq

/-- A draft in the workflow.  `preparing` is `restructure_status in {"queued", "processing",
"deferred"}` and `splitCandidate` is `submission_kind == "split_candidate"`. -/
structure WorkflowDraft extends PendingDraft where
  preparing : Bool
  splitCandidate : Bool
  deriving DecidableEq

/-- The tables, with the drafts' primary key. -/
structure Workflow where
  accounts : List Account
  rules : List ApproverRule
  drafts : List WorkflowDraft
  ids : (drafts.map (·.id)).Nodup

/-- An `HTTPException`. -/
structure Refusal where
  statusCode : Nat
  detail : String
  deriving DecidableEq, Repr

def DraftStatus.text : DraftStatus → String
  | .draft => "draft"
  | .pending => "pending"
  | .approved => "approved"
  | .rejected => "rejected"

structure DraftTransition where
  draftId : Id
  fromStatus : Option DraftStatus
  toStatus : DraftStatus
  actorId : Option Id
  reason : Option String
  deriving DecidableEq, Repr

/-! ### Updates -/

theorem map_id_put (rows : List WorkflowDraft) (d : WorkflowDraft) :
    (rows.map fun row => if row.id = d.id then d else row).map (·.id) = rows.map (·.id) := by
  rw [List.map_map]
  refine List.map_congr_left fun row _ => ?_
  by_cases h : row.id = d.id
  · simp [h]
  · simp [h]

namespace Workflow

/-- `update_draft`: the row of the draft's id becomes the draft. -/
def put (s : Workflow) (d : WorkflowDraft) : Workflow where
  accounts := s.accounts
  rules := s.rules
  drafts := s.drafts.map fun row => if row.id = d.id then d else row
  ids := by rw [map_id_put]; exact s.ids

def add (s : Workflow) (d : WorkflowDraft) (h : d.id ∉ s.drafts.map (·.id)) : Workflow where
  accounts := s.accounts
  rules := s.rules
  drafts := d :: s.drafts
  ids := List.nodup_cons.mpr ⟨h, s.ids⟩

/-- A user's row, new or in the place of the old one. -/
def setAccount (s : Workflow) (a : Account) : Workflow :=
  { s with accounts := a :: s.accounts.filter fun b => b.id != a.id }

/-- What deactivation does to the drafts: the pending ones lose their approver. -/
def unassign (id : Id) (d : WorkflowDraft) : WorkflowDraft :=
  if d.assignedApproverId = some id ∧ d.status = .pending then
    { d with assignedApproverId := none }
  else d

theorem unassign_id (id : Id) (d : WorkflowDraft) : (unassign id d).id = d.id := by
  unfold unassign
  split <;> rfl

def deactivate (s : Workflow) (a : Account) : Workflow where
  accounts := (s.setAccount a).accounts
  rules := s.rules
  drafts := s.drafts.map (unassign a.id)
  ids := by
    rw [List.map_map, show (fun d : WorkflowDraft => d.id) ∘ unassign a.id = fun d => d.id from
      funext (unassign_id a.id)]
    exact s.ids

def account (s : Workflow) (id : Id) : Option Account :=
  s.accounts.find? fun a => a.id == id

/-- The signed-in user of a request; an inactive one has none. -/
def actor (s : Workflow) (id : Id) : Option Account :=
  (s.account id).filter (·.active)

def identityScope (viewer : User) (a : Account) : Bool :=
  if hasPermission viewer .userRead none .global || hasPermission viewer .userManage none .global
  then true
  else if hasPermission viewer .userRead none .company ||
      hasPermission viewer .userManage none .company then a.companyDomain == viewer.companyDomain
  else false

/-- `UserRepository.get_by_id` with a viewer. -/
def getById (s : Workflow) (id : Id) (viewer : User) : Option Account :=
  (s.account id).filter (identityScope viewer)

/-- `get_draft_for_user`. -/
def load (s : Workflow) (id : Id) (user : User) : Option WorkflowDraft :=
  s.drafts.find? fun d => d.id == id && admits (openFilters user) d.toPendingDraft

def getApproverRule (s : Workflow) (companyDomain : String) (dept : Option String) :
    Option ApproverRule :=
  match dept with
  | none => none
  | some name =>
    if name = "" then none
    else s.rules.find? fun rule =>
      rule.companyDomain == companyDomain && rule.dept == name && rule.active

end Workflow

/-! ### Rights -/

/-- A draft as `has_permission` reads it: no `departments`, no `owner_id`. -/
def PendingDraft.resource (d : PendingDraft) : Resource where
  companyDomain := d.companyDomain
  departments := []
  dept := d.dept
  ownerId := none

def canReviewDraft (u : User) (d : PendingDraft) : Bool :=
  covers u .articleReview d.resource || covers u .articlePublish d.resource

/-- The author, where no Admin or CEO. -/
def ownUnprivileged (u : User) (d : PendingDraft) : Bool :=
  d.createdBy == some u.id && !maySelfApprove u

/-- `allowed` of `_transition_draft`. -/
def allowedTransitions : DraftStatus → List DraftStatus
  | .draft => [.pending, .rejected]
  | .pending => [.approved, .rejected]
  | .rejected => [.pending]
  | .approved => []

def transitionDraft (d : WorkflowDraft) (toStatus : DraftStatus) : Except Refusal WorkflowDraft :=
  if toStatus ∉ allowedTransitions d.status then
    .error ⟨409, "Draft cannot transition from " ++ d.status.text ++ " to " ++ toStatus.text⟩
  else .ok { d with status := toStatus }

/-! ### The service -/

section Service

variable (s : Workflow) (user : User) (id : Id)

/-- The approver the department's rule names, where it may act on the draft. -/
def ruleApprover (d : PendingDraft) : Option Id :=
  match s.getApproverRule d.companyDomain d.dept with
  | none => none
  | some rule =>
    match s.getById rule.approverId user with
    | none => none
    | some a =>
      if rule.active && a.active && a.companyDomain == d.companyDomain &&
        canReviewDraft a.toUser d && !ownUnprivileged a.toUser d then some a.id
      else none

def submitDraft : Except Refusal WorkflowDraft :=
  match s.load id user with
  | none => .error ⟨404, "Draft not found"⟩
  | some d =>
    if d.createdBy != some user.id && !isGlobalPublisher user &&
        !(d.splitCandidate && canReviewDraft user d.toPendingDraft) then
      .error ⟨403, "Only the draft author or a global publisher can submit this draft"⟩
    else if d.status != .draft then
      .error ⟨409, "Draft cannot be submitted from status: " ++ d.status.text⟩
    else do
      let d ← transitionDraft d .pending
      match ruleApprover s user d.toPendingDraft with
      | some approver => .ok { d with assignedApproverId := some approver }
      | none => .ok d

/-- The approver `assign_approver` is asked for. -/
def requestedApprover (d : PendingDraft) (approverId : Option Id) (useRule : Bool) :
    Except Refusal (Option Id) :=
  if useRule then
    match s.getApproverRule d.companyDomain d.dept with
    | some rule =>
      if rule.active then .ok (some rule.approverId)
      else .error ⟨404, "No active approver rule exists for this department"⟩
    | none => .error ⟨404, "No active approver rule exists for this department"⟩
  else .ok approverId

def assignApprover (approverId : Option Id) (useRule : Bool) : Except Refusal WorkflowDraft :=
  match s.load id user with
  | none => .error ⟨404, "Draft not found"⟩
  | some d =>
    if d.status != .pending then .error ⟨409, "Only pending drafts can be assigned"⟩
    else if d.companyDomain != user.companyDomain && !isGlobalPublisher user then
      .error ⟨403, "Draft is outside your company"⟩
    else if !canReviewDraft user d.toPendingDraft then
      .error ⟨403, "Not authorized to assign approvers for this draft"⟩
    else do
      let requested ← requestedApprover s d.toPendingDraft approverId useRule
      match requested with
      | none => .error ⟨422, "approver_id is required unless use_rule is true"⟩
      | some requested =>
        match (s.getById requested user).filter fun a =>
            a.active && a.companyDomain == d.companyDomain with
        | none => .error ⟨422, "Approver must be an active user in the draft's company"⟩
        | some a =>
          if ownUnprivileged a.toUser d.toPendingDraft then
            .error ⟨422, "A submitter cannot approve their own draft"⟩
          else if !canReviewDraft a.toUser d.toPendingDraft then
            .error ⟨422, "Selected user does not have approval permission for this draft"⟩
          else if d.assignedApproverId == some a.id then
            .error ⟨409, "The selected approver is already assigned"⟩
          else .ok { d with assignedApproverId := some a.id }

/-- The checks `approve_draft` and `reject_draft` share, with the two forms of the verb in their
messages. -/
def checkDecision (participle verb : String) : Except Refusal WorkflowDraft :=
  match s.load id user with
  | none => .error ⟨404, "Draft not found"⟩
  | some d =>
    if d.status != .pending then
      .error ⟨409, "Draft cannot be " ++ participle ++ " from status: " ++ d.status.text⟩
    else if d.preparing then
      .error ⟨409, "Wait for document preparation to finish before deciding this draft."⟩
    else if d.companyDomain != user.companyDomain && !isGlobalPublisher user then
      .error ⟨403, "Draft is outside your company"⟩
    else if !canApproveDraft user d.toPendingDraft then
      .error ⟨403, "Only the assigned approver or an Admin can " ++ verb ++ " this draft"⟩
    else .ok d

/-- `approve_draft`; `publication` is the refusal of its checks on the article to be published,
if one of them refuses. -/
def approveDraft (publication : Option Refusal) : Except Refusal WorkflowDraft := do
  let d ← checkDecision s user id "approved" "approve"
  match publication with
  | some refusal => .error refusal
  | none => transitionDraft d .approved

def rejectDraft : Except Refusal WorkflowDraft := do
  let d ← checkDecision s user id "rejected" "reject"
  transitionDraft d .rejected

end Service

/-! ### Steps -/

inductive Op
  /-- A new draft: uploaded, written, imported, or split off another one. -/
  | create (d : WorkflowDraft)
  | submit (actor id : Id)
  | assign (actor id : Id) (approverId : Option Id) (useRule : Bool)
  | approve (actor id : Id) (publication : Option Refusal)
  | reject (actor id : Id)
  /-- Rejected by the code: its source was deleted, its upload failed, its parts were committed. -/
  | withdraw (id : Id)
  /-- Document preparation starts or ends. -/
  | prepare (id : Id) (preparing : Bool)
  /-- A connector's departments reach a pending draft that has none. -/
  | route (id : Id) (dept : Option String)
  /-- Any change of a user: role, permissions of a role, departments, company. -/
  | setAccount (a : Account)
  | deactivate (a : Account)
  | setRules (rules : List ApproverRule)

inductive Event
  | approved (user : Account) (d : WorkflowDraft)
  | changed (a : Account)
  | quiet

/-- A call by a signed-in user that is not refused. -/
def called (s : Workflow) (actor : Id) (f : User → Except Refusal WorkflowDraft)
    (event : Account → Event) : Option (Event × Workflow) :=
  match s.actor actor with
  | none => none
  | some user =>
    match f user.toUser with
    | .error _ => none
    | .ok d => some (event user, s.put d)

def changedRow (s : Workflow) (id : Id) (cond : WorkflowDraft → Bool)
    (f : WorkflowDraft → WorkflowDraft) : Option (Event × Workflow) :=
  match s.drafts.find? fun d => d.id == id with
  | none => none
  | some d => if cond d then some (.quiet, s.put (f d)) else none

def next (s : Workflow) : Op → Option (Event × Workflow)
  | .create d =>
    if h : d.id ∉ s.drafts.map (·.id) then
      if d.assignedApproverId = none ∧ (d.status = .draft ∨ d.status = .pending) then
        some (.quiet, s.add d h)
      else none
    else none
  | .submit actor id => called s actor (fun user => submitDraft s user id) fun _ => .quiet
  | .assign actor id approverId useRule =>
    called s actor (fun user => assignApprover s user id approverId useRule) fun _ => .quiet
  | .approve actor id publication =>
    match s.actor actor with
    | none => none
    | some user =>
      match approveDraft s user.toUser id publication with
      | .error _ => none
      | .ok d => some (.approved user d, s.put d)
  | .reject actor id => called s actor (fun user => rejectDraft s user id) fun _ => .quiet
  | .withdraw id =>
    changedRow s id (fun d => d.status == .draft || d.status == .pending) fun d =>
      { d with status := .rejected }
  | .prepare id preparing =>
    changedRow s id (fun _ => true) fun d => { d with preparing := preparing }
  | .route id dept =>
    changedRow s id (fun d => d.status == .pending && d.dept == none) fun d => { d with dept := dept }
  | .setAccount a => some (.changed a, s.setAccount a)
  | .deactivate a => if a.active then none else some (.quiet, s.deactivate a)
  | .setRules rules => some (.quiet, { s with rules := rules })

def Step : Workflow → Event → Workflow → Prop := By next

def Initial (s : Workflow) : Prop := s.drafts = []

end QnscKb.Review
