import QnscKb.Review.Workflow

/-!
# Review — Transitions

Every writer of a draft's status: the calls of `GovernanceService` (`submit_draft`, `approve_draft`,
`reject_draft`, `commit_candidates`), the three that create a draft, the failed presigned upload
(`complete_presigned_upload`) and the deletion of a source document (`_handle_deleted_document`).

A session keeps the objects it has loaded, whatever it locks or commits.  The approval agent and the
department sweep load the whole queue and decide it draft by draft (`scan`); the deletion of a
document reads its drafts without a lock and writes them at its commit.
-/

namespace QnscKb.Transitions
open QnscKb.Access QnscKb.Where QnscKb.Review QnscKb.Runs

/-! ### Rows -/

/-- A change of status by the table, with the approver it sets, if any. -/
structure Move where
  draftId : Id
  fromStatus : DraftStatus
  toStatus : DraftStatus
  approver : Option Id
  actorId : Option Id
  reason : Option String
  allowed : toStatus ∈ allowedTransitions fromStatus

/-- The drafts a deletion has read. -/
structure Deletion where
  drafts : List WorkflowDraft
  undecided : ∀ d ∈ drafts, d.status = .draft ∨ d.status = .pending
  ids : (drafts.map (·.id)).Nodup

def Deletion.nothing : Deletion :=
  ⟨[], fun _ hd => (List.not_mem_nil hd).elim, List.nodup_nil⟩

/-- What an approval publishes. -/
inductive Publication
  | created (article : Id)
  | updated (article : Id)
  deriving DecidableEq, Repr

/-- The tables, two more columns of the drafts, and what the sessions hold. -/
structure Board where
  workflow : Workflow
  /-- `storage_key` and `upload_mode == "presigned"`. -/
  awaitingUpload : Id → Bool
  externalDocumentId : Id → Option Id
  transitions : List DraftTransition
  publications : List (Id × Publication)
  /-- The drafts in a session's identity map. -/
  copies : Id → List WorkflowDraft
  deleting : Id → Deletion

def Move.row (m : Move) : DraftTransition :=
  ⟨m.draftId, some m.fromStatus, m.toStatus, m.actorId, m.reason⟩

/-- What a move makes of a draft: the columns it sets, the others as they are. -/
def Move.apply (m : Move) (d : WorkflowDraft) : WorkflowDraft :=
  { d with status := m.toStatus, assignedApproverId := m.approver.orElse fun _ =>
      d.assignedApproverId }

/-- The last move of a list on a draft. -/
def applyAll (moves : List Move) (d : WorkflowDraft) : WorkflowDraft :=
  match moves.find? fun m => m.draftId == d.id with
  | some m => m.apply d
  | none => d

@[simp] theorem applyAll_id (moves : List Move) (d : WorkflowDraft) :
    (applyAll moves d).id = d.id := by
  unfold applyAll
  split <;> rfl

namespace Board

/-- A draft as a session has it: the object it holds, else the row. -/
def load (s : Board) (session id : Id) (user : User) : Option WorkflowDraft :=
  (s.workflow.load id user).map fun row =>
    ((s.copies session).find? fun d => d.id == id).getD row

def move (s : Board) (session : Id) (moves : List Move) : Board :=
  { s with
    workflow := { s.workflow with
      drafts := s.workflow.drafts.map (applyAll moves)
      ids := by
        rw [List.map_map, show (fun d : WorkflowDraft => d.id) ∘ applyAll moves = fun d => d.id from
          funext (applyAll_id moves)]
        exact s.workflow.ids }
    transitions := moves.map Move.row ++ s.transitions
    copies := fun k => if k = session then (s.copies k).map (applyAll moves) else s.copies k }

/-- A new row, with the transitions committed beside it. -/
def insert (s : Board) (d : WorkflowDraft) (h : d.id ∉ s.workflow.drafts.map (·.id))
    (awaitingUpload : Bool) (externalDocumentId : Option Id) (rows : List DraftTransition) :
    Board :=
  { s with
    workflow := s.workflow.add d h
    awaitingUpload := fun id => if id = d.id then awaitingUpload else s.awaitingUpload id
    externalDocumentId := fun id =>
      if id = d.id then externalDocumentId else s.externalDocumentId id
    transitions := rows ++ s.transitions }

end Board

/-! ### Calls -/

def stripped (reason : Option String) : Option String :=
  match reason with
  | none => none
  | some text => if strip text = "" then none else some (strip text)

def submitReason (reason : Option String) : String :=
  match reason with
  | none => "Submitted for independent approval"
  | some text => if text = "" then "Submitted for independent approval" else text

/-- `_transition_draft`, with the approver its caller sets. -/
def transition (actor : User) (d : WorkflowDraft) (toStatus : DraftStatus) (approver : Option Id)
    (reason : Option String) : Except Refusal Move :=
  if h : toStatus ∈ allowedTransitions d.status then
    .ok ⟨d.id, d.status, toStatus, approver, some actor.id, stripped reason, h⟩
  else
    .error ⟨409, "Draft cannot transition from " ++ d.status.text ++ " to " ++ toStatus.text⟩

section Calls

variable (s : Board) (session : Id) (user : User) (id : Id)

def submit (reason : Option String) : Except Refusal Move :=
  match s.load session id user with
  | none => .error ⟨404, "Draft not found"⟩
  | some d =>
    if d.createdBy != some user.id && !isGlobalPublisher user &&
        !(d.splitCandidate && canReviewDraft user d.toPendingDraft) then
      .error ⟨403, "Only the draft author or a global publisher can submit this draft"⟩
    else if d.status != .draft then
      .error ⟨409, "Draft cannot be submitted from status: " ++ d.status.text⟩
    else transition user d .pending
      (ruleApprover s.workflow user { d with status := .pending }.toPendingDraft)
      (some (submitReason reason))

/-- The checks `approve_draft` and `reject_draft` share. -/
def checkDecided (participle verb : String) : Except Refusal WorkflowDraft :=
  match s.load session id user with
  | none => .error ⟨404, "Draft not found"⟩
  | some d =>
    if d.status != .pending then
      .error ⟨409, "Draft cannot be " ++ participle ++ " from status: " ++ d.status.text⟩
    else if d.preparing then
      .error ⟨409, "Wait for document preparation to finish before deciding this draft."⟩
    else if d.companyDomain != user.companyDomain && !isGlobalPublisher user then
      .error ⟨403, "Draft is outside your company"⟩
    else if !canApproveDraft user d.toPendingDraft then
      .error ⟨403, "Only the assigned approver or an Admin can " ++ verb ++ " this draft"⟩
    else .ok d

/-- `approve_draft`; `refusal` is that of its checks on the article, if one refuses. -/
def approve (refusal : Option Refusal) (note : Option String) : Except Refusal Move := do
  let d ← checkDecided s session user id "approved" "approve"
  match refusal with
  | some refusal => .error refusal
  | none => transition user d .approved none note

def reject (note : String) : Except Refusal Move := do
  let d ← checkDecided s session user id "rejected" "reject"
  transition user d .rejected none (some note)

/-- `commit_candidates`, on the parent. -/
def closeParent : Except Refusal Move :=
  match s.load session id user with
  | none => .error ⟨404, "Draft not found"⟩
  | some d =>
    if d.status != .pending then .error ⟨409, "Only pending documents can be committed"⟩
    else if d.preparing then
      .error ⟨409, "AI formatting is still in progress; candidates cannot be committed yet"⟩
    else if !canReviewDraft user d.toPendingDraft then
      .error ⟨403, "Not authorized to commit batch candidates"⟩
    else transition user d .rejected none
      (some "Split candidates committed as independent drafts")

end Calls

/-! ### Steps -/

inductive Op
  /-- A draft of an upload, a text, a connector document or a committed part. -/
  | create (d : WorkflowDraft) (awaitingUpload : Bool) (document : Option Id) (reason : String)
  /-- A connector document of a connector without an owner: submitted as it is created. -/
  | importConnector (d : WorkflowDraft) (document : Option Id)
  /-- A file of the local folder: created pending. -/
  | importLocal (d : WorkflowDraft)
  | submit (session actor id : Id) (reason : Option String)
  | approve (session actor id : Id) (refusal : Option Refusal) (note : Option String)
    (publication : Publication)
  | reject (session actor id : Id) (note : String)
  | closeParent (session actor id : Id)
  /-- `discard_failed_upload`. -/
  | failUpload (actor id : Id)
  /-- A job loads the pending queue of a company. -/
  | scan (session : Id) (company : String)
  /-- The two halves of `_handle_deleted_document`. -/
  | readDeleted (session document : Id)
  | writeDeleted (session : Id) (actor : Option Id)
  /-- A session ends, or rolls back. -/
  | forget (session : Id)
  /-- An operation on approvers, users, rules, preparation or departments. -/
  | manage (op : Review.Op)

/-- The operations of the workflow that are no call on a status. -/
def managing : Review.Op → Bool
  | .assign .. | .prepare .. | .route .. | .setAccount .. | .deactivate .. | .setRules .. => true
  | _ => false

/-- The move of a call by an active user, where it is not refused. -/
def moveOf (s : Board) (actor : Id) (call : User → Except Refusal Move) : Option Move :=
  match s.workflow.actor actor with
  | none => none
  | some user => (call user.toUser).toOption

/-- The queue `scan` loads. -/
def queue (s : Board) (company : String) : List WorkflowDraft :=
  s.workflow.drafts.filter fun d => d.companyDomain == company && d.status == .pending &&
    !d.preparing

/-- The drafts `_handle_deleted_document` loads. -/
def undecidedOf (s : Board) (document : Id) : Deletion where
  drafts := s.workflow.drafts.filter fun d =>
    s.externalDocumentId d.id == some document && (d.status == .draft || d.status == .pending)
  undecided := by
    intro d hd
    simpa using (Bool.and_eq_true_iff.mp (List.mem_filter.mp hd).2).2
  ids := s.workflow.ids.sublist (List.filter_sublist.map _)

theorem rejected_mem_allowed {status : DraftStatus}
    (h : status = .draft ∨ status = .pending) : .rejected ∈ allowedTransitions status := by
  rcases h with rfl | rfl <;> decide

/-- The moves `_handle_deleted_document` writes. -/
def Deletion.moves (x : Deletion) (actor : Option Id) : List Move :=
  x.drafts.attach.map fun d =>
    ⟨d.1.id, d.1.status, .rejected, none, actor,
      some "Source document was deleted by the provider during sync",
      rejected_mem_allowed (x.undecided d.1 d.2)⟩

/-- The draft of a failed upload, where the caller may complete it. -/
def failedUpload (s : Board) (actor id : Id) : Option WorkflowDraft :=
  match s.workflow.actor actor with
  | none => none
  | some user => (s.workflow.load id user.toUser).filter fun d =>
    (d.createdBy == some user.id || isGlobalPublisher user.toUser) && d.status == .draft &&
      s.awaitingUpload id

/-- One operation; `none` where it is refused. -/
def after (s : Board) : Op → Option Board
  | .create d awaiting document reason =>
    if h : d.id ∉ s.workflow.drafts.map (·.id) then
      if d.status = .draft ∧ d.assignedApproverId = none then
        some (s.insert d h awaiting document [⟨d.id, none, .draft, d.createdBy, some reason⟩])
      else none
    else none
  | .importConnector d document =>
    if h : d.id ∉ s.workflow.drafts.map (·.id) then
      if d.status = .pending ∧ d.assignedApproverId = none then
        some (s.insert d h false document
          [⟨d.id, some .draft, .pending, none, some "Connector source submitted"⟩,
            ⟨d.id, none, .draft, none, some "Connector source imported"⟩])
      else none
    else none
  | .importLocal d =>
    if h : d.id ∉ s.workflow.drafts.map (·.id) then
      if d.status = .pending ∧ d.assignedApproverId = none then
        some (s.insert d h false none [])
      else none
    else none
  | .submit session actor id reason =>
    (moveOf s actor fun user => submit s session user id reason).map fun m => s.move session [m]
  | .approve session actor id refusal note publication =>
    (moveOf s actor fun user => approve s session user id refusal note).map fun m =>
      { s.move session [m] with publications := (id, publication) :: s.publications }
  | .reject session actor id note =>
    (moveOf s actor fun user => reject s session user id note).map fun m => s.move session [m]
  | .closeParent session actor id =>
    (moveOf s actor fun user => closeParent s session user id).map fun m => s.move session [m]
  | .failUpload actor id =>
    (failedUpload s actor id).map fun d =>
      { s with workflow := s.workflow.put { d with status := .rejected } }
  | .scan session company =>
    some { s with copies := fun k =>
      if k = session then s.copies k ++ queue s company else s.copies k }
  | .readDeleted session document =>
    some { s with deleting := fun k =>
      if k = session then undecidedOf s document else s.deleting k }
  | .writeDeleted session actor =>
    let t := s.move session ((s.deleting session).moves actor)
    some { t with deleting := fun k => if k = session then .nothing else t.deleting k }
  | .forget session =>
    some { s with
      copies := fun k => if k = session then [] else s.copies k
      deleting := fun k => if k = session then .nothing else s.deleting k }
  | .manage op =>
    if managing op then (Review.next s.workflow op).map fun out => { s with workflow := out.2 }
    else none

def next (s : Board) (op : Op) : Option (Op × Board) :=
  (after s op).map fun t => (op, t)

def Step : Board → Op → Board → Prop := By next

/-- No drafts yet, with any users and rules. -/
structure Initial (s : Board) : Prop where
  drafts : s.workflow.drafts = []
  transitions : s.transitions = []
  publications : s.publications = []
  copies : ∀ session, s.copies session = []

end QnscKb.Transitions
