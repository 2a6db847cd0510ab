import QnscKb.Lib.Runs

/-!
# Edits — Model

The four ways to replace the body of one article, as sessions that interleave: the edit form
(`_submit_article_update`), the restore of a version (`restore_version`), the approval of a draft
(`GovernanceService.approve_draft`) and an assistant's confirmed edit (`AIService.ask`,
`ArticleService.update_article`).

`expire_on_commit` is off and `get_by_id_for_update` does not repopulate, so an article loaded once
keeps the version it was loaded with; a row lock is held to the commit, and an `UPDATE` waits for
it.  `uq_article_versions_article_version` refuses a second version row of one number.

`preparedFrom` is no column: it records the version an edit was prepared from.
-/

namespace QnscKb.Edits

variable {Body : Type}

structure Article (Body : Type) where
  version : Nat
  bodyMd : Body
  deriving DecidableEq

structure ArticleVersion (Body : Type) where
  version : Nat
  bodyMd : Body
  deriving DecidableEq

inductive DraftStatus
  | draft | pending | approved
  deriving DecidableEq, Repr

/-- A draft that targets the article. -/
structure PendingDraft (Body : Type) where
  bodyMd : Body
  status : DraftStatus
  preparedFrom : Nat
  deriving DecidableEq

/-- A request as it arrives. -/
inductive Request (Body : Type)
  /-- `PUT /articles/{id}`, from an editor opened on `version`. -/
  | submitUpdate (version : Option Nat) (body : Body) (mayPublishOwnChange : Bool)
  /-- `POST /articles/{id}/versions/{number}/restore`. -/
  | restoreVersion (number : Nat)
  /-- `POST /governance/drafts/{draft}/approve`. -/
  | approveDraft (draft : Nat)
  | confirmEdit
  deriving DecidableEq

/-- How far a session is; `read` is the version its article was loaded with. -/
inductive Session (Body : Type)
  | requested (request : Request Body)
  | updateChecked (read : Nat) (body : Body) (mayPublishOwnChange : Bool)
  | restoreChecked (read : Nat) (body : Body)
  | draftCreated (read : Nat) (draft : Nat) (mayPublishOwnChange : Bool)
  | selfApproving (read : Nat) (draft : Nat)
  | selfLocked (read : Nat) (draft : Nat)
  | approveLocked (read : Nat) (draft : Nat)
  | revised (read : Nat) (body : Body) (revision : Body)
  | closed
  deriving DecidableEq

/-- The article, its version and draft rows, the sessions, and the holder of the row lock. -/
structure State (Body : Type) where
  article : Article Body
  versions : List (ArticleVersion Body)
  drafts : List (PendingDraft Body)
  sessions : List (Session Body)
  lock : Option Nat
  deriving DecidableEq

/-- What a step does that others can tell. -/
inductive Event
  | quiet
  | approvalLocks (draft : Nat)
  /-- An edit prepared from `base` replaces the body. -/
  | replaces (base : Nat)
  deriving DecidableEq, Repr

/-! ### Updates of the state -/

namespace State

def put (s : State Body) (k : Nat) (x : Session Body) : State Body :=
  { s with sessions := s.sessions.set k x }

def addDraft (s : State Body) (d : PendingDraft Body) : State Body :=
  { s with drafts := s.drafts ++ [d] }

def setStatus (s : State Body) (i : Nat) (status : DraftStatus) : State Body :=
  { s with drafts := s.drafts.modify i fun d => { d with status := status } }

def hold (s : State Body) (k : Nat) : State Body := { s with lock := some k }

def release (s : State Body) : State Body := { s with lock := none }

def hasVersion (s : State Body) (n : Nat) : Bool :=
  s.versions.any fun row => row.version == n

/-- The article row and its version row, from a session that loaded version `read`. -/
def publish (s : State Body) (read : Nat) (body : Body) : State Body :=
  { s with
    article := ⟨read + 1, body⟩
    versions := s.versions ++ [⟨read + 1, body⟩] }

end State

/-! ### Steps -/

section Steps

variable [DecidableEq Body]

/-- `approve_draft` from the lock: the draft's body with the version after the one loaded, rolled
back where that version row exists. -/
def commitApproval (s : State Body) (k : Nat) (read : Nat) (draft : Nat) :
    Option (Event × State Body) :=
  match s.drafts[draft]? with
  | none => some (.quiet, s.release.put k .closed)
  | some d =>
    if s.hasVersion (read + 1) then some (.quiet, s.release.put k .closed)
    else some (.replaces d.preparedFrom,
      (((s.publish read d.bodyMd).setStatus draft .approved).release).put k .closed)

/-- The next step of a session.  `output` is the text a model returns where the step asks one. -/
def advance (s : State Body) (k : Nat) (output : Body) : Option (Event × State Body) :=
  match s.sessions[k]? with
  | none => none
  | some (.requested (.submitUpdate version body own)) =>
    -- the 409 of a form opened on another version; a form that sends none is not checked
    if version.any fun v => v != s.article.version then some (.quiet, s.put k .closed)
    else some (.quiet, s.put k (.updateChecked s.article.version body own))
  | some (.requested (.restoreVersion number)) =>
    match s.versions.find? fun row => row.version == number with
    | none => some (.quiet, s.put k .closed)
    | some row =>
      if row.version = s.article.version then some (.quiet, s.put k .closed)
      else some (.quiet, s.put k (.restoreChecked s.article.version row.bodyMd))
  | some (.requested (.approveDraft draft)) =>
    match s.drafts[draft]? with
    | none => some (.quiet, s.put k .closed)
    | some d =>
      if d.status ≠ .pending then some (.quiet, s.put k .closed)
      else if s.lock.isSome then none
      else some (.approvalLocks draft, (s.hold k).put k (.approveLocked s.article.version draft))
  | some (.requested .confirmEdit) =>
    some (.quiet, s.put k (.revised s.article.version s.article.bodyMd output))
  | some (.updateChecked read _ own) =>
    some (.quiet, (s.addDraft ⟨output, .draft, read⟩).put k
      (.draftCreated read s.drafts.length own))
  | some (.restoreChecked read body) =>
    some (.quiet, (s.addDraft ⟨body, .draft, read⟩).put k
      (.draftCreated read s.drafts.length false))
  | some (.draftCreated read draft own) =>
    some (.quiet, (s.setStatus draft .pending).put k
      (if own then .selfApproving read draft else .closed))
  | some (.selfApproving read draft) =>
    -- article and draft are the session's own objects, still as it loaded them
    if s.lock.isSome then none else some (.quiet, (s.hold k).put k (.selfLocked read draft))
  | some (.selfLocked read draft) => commitApproval s k read draft
  | some (.approveLocked read draft) => commitApproval s k read draft
  | some (.revised read body revision) =>
    if revision = body then some (.quiet, s.put k .closed)
    else if s.lock.isSome then none
    else if s.hasVersion (read + 1) then some (.quiet, s.put k .closed)
    else some (.replaces read, (s.publish read revision).put k .closed)
  | some .closed => none

/-- A session ends without a commit: refused by another check, failed, or gone. -/
def abandon (s : State Body) (k : Nat) : State Body :=
  if s.lock = some k then s.release.put k .closed else s.put k .closed

inductive Action (Body : Type)
  | arrive (request : Request Body)
  | advance (session : Nat) (output : Body)
  | abandon (session : Nat)
  deriving DecidableEq

/-- One step of the system; `none` where the session waits or has ended. -/
def next (s : State Body) : Action Body → Option (Event × State Body)
  | .arrive request => some (.quiet, { s with sessions := s.sessions ++ [.requested request] })
  | .advance k output => advance s k output
  | .abandon k => some (.quiet, abandon s k)

def Step (s : State Body) (e : Event) (t : State Body) : Prop :=
  ∃ a : Action Body, next s a = some (e, t)

end Steps

/-- The trace of a list of actions, the last step first; `none` where one of them waits. -/
def play [DecidableEq Body] (tr : List (State Body × Event)) (s : State Body) :
    List (Action Body) → Option (List (State Body × Event) × State Body)
  | [] => some (tr, s)
  | a :: actions =>
    match next s a with
    | none => none
    | some (e, t) => play ((s, e) :: tr) t actions

/-- An article with its history, before any of the requests. -/
structure Initial (s : State Body) : Prop where
  history : ∀ n, s.hasVersion n = true ↔ 1 ≤ n ∧ n ≤ s.article.version
  noDrafts : s.drafts = []
  noSessions : s.sessions = []
  unlocked : s.lock = none

open Runs in
/-- What actions play is a run. -/
theorem run_of_play [DecidableEq Body] (actions : List (Action Body))
    {tr tr' : List (State Body × Event)} {s s' : State Body} (r : Run Initial Step tr s)
    (h : play tr s actions = some (tr', s')) : Run Initial Step tr' s' := by
  induction actions generalizing tr s with
  | nil =>
    cases h
    exact r
  | cons a actions ih =>
    simp only [play] at h
    split at h
    · cases h
    · rename_i e t hn
      exact ih (r.next ⟨a, hn⟩) h

end QnscKb.Edits
