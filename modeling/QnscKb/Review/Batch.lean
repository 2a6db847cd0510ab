import QnscKb.Review.Workflow

/-!
# Review — Batch

A document that was cut into parts (`DraftCandidate`) is reviewed part by part and committed as one
draft a part: `GovernanceService.commit_candidates`.

The call has one commit of its own; what raises before it is rolled back, and each new draft is then
submitted by `submit_draft`, which commits again.  Failures, identifiers, clock and hash are the
call's `Environment`.
-/

namespace QnscKb.Batch
open QnscKb.Access QnscKb.Where QnscKb.Review

/-! ### Rows -/

inductive CandidateStatus
  | candidate | discarded | committed
  deriving DecidableEq, Repr

/-- Where a part stands in its source; `details` are merged over the rest. -/
structure SourcePosition where
  start : Nat
  stop : Nat
  heading : Option String
  details : List (String × String)
  deriving DecidableEq

/-- `DraftCandidate`; absent `department_ids` are none. -/
structure Candidate where
  id : Id
  draftId : Id
  position : Nat
  title : String
  bodyMd : String
  sourceStart : Nat
  sourceEnd : Nat
  heading : Option String
  sourcePosition : List (String × String)
  departmentIds : List Id
  status : CandidateStatus
  deriving DecidableEq

/-- `item.status = "committed"`, for the parts of a list of keys. -/
def Candidate.commit (ids : List Id) (c : Candidate) : Candidate :=
  if c.id ∈ ids then { c with status := .committed } else c

theorem map_commit_id (ids : List Id) (cs : List Candidate) :
    (cs.map (Candidate.commit ids)).map (·.id) = cs.map (·.id) := by
  rw [List.map_map]
  refine List.map_congr_left fun c _ => ?_
  simp only [Function.comp, Candidate.commit]
  split <;> rfl

theorem map_commit_place (ids : List Id) (cs : List Candidate) :
    (cs.map (Candidate.commit ids)).map (fun c => (c.draftId, c.position)) =
      cs.map fun c => (c.draftId, c.position) := by
  rw [List.map_map]
  refine List.map_congr_left fun c _ => ?_
  simp only [Function.comp, Candidate.commit]
  split <;> rfl

/-- A draft with what its parts take over from it. -/
structure SplitDraft extends WorkflowDraft where
  sourceHash : String
  summary : Option String
  restructuredBodyMd : Option String
  restructureModel : Option String
  storageKey : Option String
  originalFilename : Option String
  mimeType : Option String
  pageTexts : List String
  tags : List String
  departmentIds : List Id
  sourcePosition : Option SourcePosition
  deriving DecidableEq

/-- The tables, with the primary keys and `uq_draft_candidate_position`. -/
structure Desk where
  accounts : List Account
  rules : List ApproverRule
  departments : List Department
  drafts : List SplitDraft
  candidates : List Candidate
  transitions : List DraftTransition
  ids : (drafts.map (·.id)).Nodup
  candidateIds : (candidates.map (·.id)).Nodup
  positions : (candidates.map fun c => (c.draftId, c.position)).Nodup

/-- Where the database may fail. -/
inductive Stage
  /-- Up to the commit of the parts, that commit included. -/
  | commit
  /-- In the submission of a new draft. -/
  | submit (id : Id)
  /-- In the audit row of the call. -/
  | audit
  deriving DecidableEq, Repr

structure Environment where
  sha256 : String → String
  newId : Candidate → Id
  now : Nat
  fails : Stage → Bool

/-- What a call raises. -/
inductive Failure
  | refused (refusal : Refusal)
  | raised
  deriving DecidableEq, Repr

/-! ### The tables -/

namespace Desk

/-- The tables as the workflow reads them. -/
def workflow (s : Desk) : Workflow where
  accounts := s.accounts
  rules := s.rules
  drafts := s.drafts.map (·.toWorkflowDraft)
  ids := by rw [List.map_map]; exact s.ids

/-- `get_draft_for_user`. -/
def load (s : Desk) (id : Id) (user : User) : Option SplitDraft :=
  s.drafts.find? fun d => d.id == id && admits (openFilters user) d.toPendingDraft

theorem map_id_put (rows : List SplitDraft) (d : WorkflowDraft) :
    (rows.map fun row => if row.id = d.id then { row with toWorkflowDraft := d } else row).map
      (·.id) = rows.map (·.id) := by
  rw [List.map_map]
  refine List.map_congr_left fun row _ => ?_
  by_cases h : row.id = d.id
  · simp [h]
  · simp [h]

/-- `update_draft`, with the transition it commits. -/
def put (s : Desk) (d : WorkflowDraft) (transition : DraftTransition) : Desk where
  accounts := s.accounts
  rules := s.rules
  departments := s.departments
  drafts := s.drafts.map fun row =>
    if row.id = d.id then { row with toWorkflowDraft := d } else row
  candidates := s.candidates
  transitions := transition :: s.transitions
  ids := by rw [map_id_put]; exact s.ids
  candidateIds := s.candidateIds
  positions := s.positions

/-- The active candidates of a draft, by position. -/
def active (s : Desk) (id : Id) : List Candidate :=
  (s.candidates.filter fun c => c.draftId == id && c.status == .candidate).insertionSort
    fun x y => x.position ≤ y.position

end Desk

/-! ### Parts -/

def selectedDepartments (departments : List Department) (company : String) (c : Candidate) :
    List Department :=
  c.departmentIds.filterMap fun id =>
    departments.find? fun d => d.id == id && d.companyDomain == company && d.active

/-- The part goes through: a department of it is active, or it names none. -/
def routed (departments : List Department) (company : String) (c : Candidate) : Bool :=
  !(selectedDepartments departments company c).isEmpty || c.departmentIds.isEmpty

/-- The part of a source's reference. -/
def candidateRef (parent : SplitDraft) (c : Candidate) : String :=
  parent.sourceRef ++ "#candidate-" ++ toString c.position

def child (env : Environment) (departments : List Department) (parent : SplitDraft)
    (c : Candidate) : SplitDraft where
  id := env.newId c
  createdAt := env.now
  title := c.title
  sourceRef := candidateRef parent c
  companyDomain := parent.companyDomain
  dept := match selectedDepartments departments parent.companyDomain c with
    | d :: _ => some d.name
    | [] => parent.dept
  status := .draft
  createdBy := parent.createdBy
  assignedApproverId := none
  preparing := false
  splitCandidate := true
  sourceHash := env.sha256 (parent.sourceHash ++ ":" ++ toString c.position ++ ":" ++ c.bodyMd)
  summary := some c.bodyMd
  restructuredBodyMd := some c.bodyMd
  restructureModel := some "structure-aware-splitter"
  storageKey := parent.storageKey
  originalFilename := parent.originalFilename
  mimeType := parent.mimeType
  pageTexts := parent.pageTexts
  tags := parent.tags
  departmentIds := match selectedDepartments departments parent.companyDomain c with
    | [] => parent.departmentIds
    | ds => ds.map (·.id)
  sourcePosition := some ⟨c.sourceStart, c.sourceEnd, c.heading, c.sourcePosition⟩

/-- An entry of `results`. -/
inductive CandidateResult
  | created (candidateId : Id) (position : Nat) (draftId : Id) (title : String)
  | failed (candidateId : Id) (position : Nat) (error : String)
  deriving DecidableEq, Repr

def result (env : Environment) (departments : List Department) (company : String) (c : Candidate) :
    CandidateResult :=
  if routed departments company c then .created c.id c.position (env.newId c) c.title
  else .failed c.id c.position "Choose at least one active department"

/-- What the call returns, detailed. -/
structure Committed where
  results : List CandidateResult
  drafts : List Id
  deriving DecidableEq

/-! ### The call -/

section Call

variable (env : Environment) (s : Desk) (user : User) (id : Id)

def checkParent : Except Refusal SplitDraft :=
  match s.load id user with
  | none => .error ⟨404, "Draft not found"⟩
  | some parent =>
    if parent.status != .pending then .error ⟨409, "Only pending documents can be committed"⟩
    else if parent.preparing then
      .error ⟨409, "AI formatting is still in progress; candidates cannot be committed yet"⟩
    else if !canReviewDraft user parent.toPendingDraft then
      .error ⟨403, "Not authorized to commit batch candidates"⟩
    else if (s.active id).isEmpty then
      .error ⟨422, "Keep at least one candidate before committing"⟩
    else .ok parent

def going (parent : SplitDraft) : List Candidate :=
  (s.active parent.id).filter (routed s.departments parent.companyDomain)

def children (parent : SplitDraft) : List SplitDraft :=
  (going s parent).map (child env s.departments parent)

/-- The keys of the new drafts are new. -/
def Fresh (parent : SplitDraft) : Prop :=
  ((children env s parent).map (·.id) ++ s.drafts.map (·.id)).Nodup

instance (parent : SplitDraft) : Decidable (Fresh env s parent) :=
  inferInstanceAs (Decidable (List.Nodup _))

def createdRow (d : SplitDraft) : DraftTransition :=
  ⟨d.id, none, .draft, some user.id, some "Created from batch-reviewed candidate"⟩

/-- The tables after the commit: the new drafts, the parts that went through, the closed parent. -/
def split (parent : SplitDraft) (closed : WorkflowDraft)
    (h : ((children env s parent).map (·.id) ++ s.drafts.map (·.id)).Nodup) : Desk where
  accounts := s.accounts
  rules := s.rules
  departments := s.departments
  drafts := children env s parent ++ s.drafts.map fun row =>
    if row.id = closed.id then { row with toWorkflowDraft := closed } else row
  candidates := s.candidates.map (Candidate.commit ((going s parent).map (·.id)))
  transitions := ⟨parent.id, some parent.status, .rejected, some user.id,
      some "Split candidates committed as independent drafts"⟩ ::
    ((children env s parent).map (createdRow user)).reverse ++ s.transitions
  ids := by rw [List.map_append, Desk.map_id_put]; exact h
  candidateIds := by rw [map_commit_id]; exact s.candidateIds
  positions := by rw [map_commit_place]; exact s.positions

/-- The loop over the children: `submit_draft` of each, up to the first that raises. -/
def submitAll : List Id → Desk → Except Failure Unit × Desk
  | [], s => (.ok (), s)
  | childId :: ids, s =>
    if env.fails (.submit childId) then (.error .raised, s)
    else match submitDraft s.workflow user childId with
      | .error refusal => (.error (.refused refusal), s)
      | .ok d => submitAll ids (s.put d
          ⟨childId, some .draft, .pending, some user.id, some "Committed from batch review"⟩)

/-- After the loop: the audit row, and what is returned. -/
def finish (parent : SplitDraft) : Except Failure Unit × Desk → Except Failure Committed × Desk
  | (.error failure, t) => (.error failure, t)
  | (.ok (), t) =>
    if env.fails .audit then (.error .raised, t)
    else (.ok ⟨(s.active parent.id).map (result env s.departments parent.companyDomain),
      (children env s parent).map (·.id)⟩, t)

/-- `commit_candidates`: what it returns or raises, with the tables it leaves. -/
def commitCandidates : Except Failure Committed × Desk :=
  match checkParent s user id with
  | .error refusal => (.error (.refused refusal), s)
  | .ok parent =>
    if (children env s parent).isEmpty then
      (.error (.refused ⟨422, "No valid candidates could be committed"⟩), s)
    else
      match transitionDraft parent.toWorkflowDraft .rejected with
      | .error refusal => (.error (.refused refusal), s)
      | .ok closed =>
        if h : Fresh env s parent then
          if env.fails .commit then (.error .raised, s)
          else finish env s parent (submitAll env user ((children env s parent).map (·.id))
            (split env s user parent closed h))
        else (.error .raised, s)

end Call

end QnscKb.Batch
