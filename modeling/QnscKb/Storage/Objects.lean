import QnscKb.Lib.Runs
import QnscKb.Review.Queue
import QnscKb.Storage.Keys

/-!
# Storage — Objects

Stored sources and the rows that name them: uploads, decisions on drafts and the sweep for objects
without a row (`upload_source`, `create_source_upload_intent`, `complete_source_upload`,
`edit_article_source` in `src/api/routers/articles.py`; `commit_candidates`, `approve_draft`,
`reject_draft` in `src/domain/governance.py`; `_run_orphan_source_cleanup` in
`src/workers/tasks.py`).

The bucket is no part of a transaction: what is put or deleted is so at once.  Who may take a step,
and which uploads are duplicates, is left open.
-/

namespace QnscKb.Storage.Objects
open Runs
open Access (Id)
open Ask (Python)
open Review (DraftStatus)

/-! ### Rows and tasks -/

structure Draft where
  id : Id
  storageKey : Option Text
  /-- `external_document_id` is set. -/
  external : Bool
  /-- `upload_mode` is `presigned`. -/
  awaitingUpload : Bool
  status : DraftStatus
  deriving DecidableEq

/-- The file of an upload, and its tenant. -/
structure Upload where
  sourceHash : Text
  filename : Text
  companyDomain : Option Text
  deriving DecidableEq

/-- Where a request or a job stands that has an effect on the bucket before or after its commit. -/
inductive Task where
  | idle
  /-- An upload that has deleted the object of a reservation it takes for abandoned. -/
  | cleared (abandoned : Id)
  /-- An upload that has put its object. -/
  | stored (abandoned : Option Id) (key : Text)
  /-- An upload that has committed its draft, and is to submit it. -/
  | created (id : Id) (key : Text)
  /-- A rejection past its commit, or an upload that failed. -/
  | deleting (key : Text)
  /-- A sweep that lists the bucket, with what it has found and the times of that. -/
  | listing (found : List (Text × Nat))
  /-- A sweep past its reading of the rows, with what it is to delete. -/
  | sweeping (left : List Text)
  deriving DecidableEq

structure State where
  now : Nat
  /-- The objects of the bucket, with `LastModified`. -/
  objects : Text → Option Nat
  drafts : List Draft
  /-- `DocumentSource.storage_key`. -/
  sources : List Text
  /-- `DocumentVersion.storage_key`. -/
  versions : List Text
  tasks : List Task

structure Config where
  python : Python
  settings : Settings
  graceHours : Nat

/-- It can still be decided. -/
def Draft.undecided (d : Draft) : Bool := d.status = .draft ∨ d.status = .pending

def Config.keyOf (C : Config) (u : Upload) : Option Text :=
  (sourceStorageKey C.python C.settings u.sourceHash u.filename u.companyDomain).toOption

/-- The hours an object is spared after its last change, in seconds. -/
def Config.grace (C : Config) : Nat := 3600 * max 1 C.graceHours

namespace State

variable (s : State)

def draft (id : Id) : Option Draft := s.drafts.find? fun d => d.id == id

def alter (id : Id) (f : Draft → Draft) : State :=
  { s with drafts := s.drafts.map fun d => if d.id = id then f d else d }

/-- The draft of an id, loaded in one status, is left in another. -/
def move (id : Id) (old new : DraftStatus) : State :=
  s.alter id fun d => if d.status = old then { d with status := new } else d

def setTask (n : Nat) (task : Task) : State := { s with tasks := s.tasks.set n task }

def put (key : Text) : State :=
  { s with objects := fun k => if k = key then some s.now else s.objects k }

def delete (key : Text) : State :=
  { s with objects := fun k => if k = key then none else s.objects k }

def deleteAny : Option Text → State
  | some key => s.delete key
  | none => s

def insert (d : Draft) : State := { s with drafts := d :: s.drafts }

def remove (id : Option Id) : State :=
  { s with drafts := s.drafts.filter fun d => some d.id != id }

/-- The keys the sweep reads, of drafts in any status. -/
def referencedKeys : List Text := s.drafts.filterMap (·.storageKey) ++ s.sources ++ s.versions

end State

/-! ### Steps -/

inductive Op where
  | passes (time : Nat)
  /-- An upload puts its object, past its checks. -/
  | stores (task : Nat) (u : Upload)
  /-- An upload deletes the object of a reservation that was not completed. -/
  | abandons (task : Nat) (id : Id)
  /-- It commits its draft, and the end of the reservation. -/
  | creates (task : Nat) (id : Id)
  /-- It fails, and is to delete what it put. -/
  | fails (task : Nat)
  /-- A draft for a presigned upload. -/
  | intends (id : Id) (u : Upload)
  /-- Its row is taken back, as no URL can be made. -/
  | revokes (id : Id)
  /-- A client uses a presigned URL. -/
  | puts (key : Text)
  /-- `complete_source_upload`, before the submission. -/
  | completes (id : Id)
  /-- `discard_failed_upload`, under the lock of the row. -/
  | discards (id : Id)
  | submits (id : Id)
  | approves (id : Id)
  | rejects (task : Nat) (id : Id)
  | commits (id : Id) (children : List Id)
  /-- A deletion from the bucket that a task has before it. -/
  | deletes (task : Nat)
  /-- The same, which the bucket refuses. -/
  | skips (task : Nat)
  /-- A task is over, or is broken off. -/
  | ends (task : Nat)
  | lists (task : Nat)
  | finds (task : Nat) (key : Text)
  /-- The sweep reads the rows. -/
  | reads (task : Nat)
  deriving DecidableEq

/-- A part of a committed batch: its row has the key of the whole. -/
def Draft.part (d : Draft) (id : Id) : Draft :=
  { id := id, storageKey := d.storageKey, external := false, awaitingUpload := d.awaitingUpload,
    status := .draft }

/-- What a rejection is to delete. -/
def Draft.rejectedKey (d : Draft) : Option Text := if d.external then none else d.storageKey

def State.orphans (C : Config) (s : State) (found : List (Text × Nat)) : List Text :=
  (found.filter fun object =>
    object.2 + C.grace < s.now && !s.referencedKeys.contains object.1).map (·.1)

def Task.ofRejection : Option Text → Task
  | some key => .deleting key
  | none => .idle

/-- One step; `none` where it cannot be taken. -/
def after (C : Config) (s : State) : Op → Option State
  | .passes time => some { s with now := s.now + time }
  | .stores n u =>
    match s.tasks[n]?, C.keyOf u with
    | some .idle, some key => some ((s.put key).setTask n (.stored none key))
    | some (.cleared abandoned), some key =>
      some ((s.put key).setTask n (.stored (some abandoned) key))
    | _, _ => none
  | .abandons n id =>
    match s.tasks[n]?, s.draft id with
    | some .idle, some d =>
      if d.status = .draft && d.awaitingUpload then
        some ((s.deleteAny d.storageKey).setTask n (.cleared id))
      else none
    | _, _ => none
  | .creates n id =>
    match s.tasks[n]? with
    | some (.stored abandoned key) =>
      some (((s.remove abandoned).insert ⟨id, some key, false, false, .draft⟩).setTask n
        (.created id key))
    | _ => none
  | .fails n =>
    match s.tasks[n]? with
    | some (.stored _ key) => some (s.setTask n (.deleting key))
    | some (.created _ key) => some (s.setTask n (.deleting key))
    | _ => none
  | .intends id u => (C.keyOf u).map fun key => s.insert ⟨id, some key, false, true, .draft⟩
  | .revokes id =>
    (s.draft id).bind fun d =>
      if d.status = .draft && d.awaitingUpload then some (s.remove (some id)) else none
  | .puts key => some (s.put key)
  | .completes id =>
    (s.draft id).bind fun d =>
      if d.status = .draft && d.awaitingUpload then
        some (s.alter id fun d => { d with awaitingUpload := false })
      else none
  | .discards id =>
    (s.draft id).bind fun d =>
      if d.status = .draft && d.awaitingUpload then
        some ((s.deleteAny d.storageKey).move id .draft .rejected)
      else none
  | .submits id =>
    (s.draft id).bind fun d =>
      if d.status = .draft then some (s.move id .draft .pending) else none
  | .approves id =>
    (s.draft id).bind fun d =>
      if d.status = .pending then
        some { s.move id .pending .approved with sources := d.storageKey.toList ++ s.sources }
      else none
  | .rejects n id =>
    match s.tasks[n]?, s.draft id with
    | some .idle, some d =>
      if d.status = .pending then
        some ((s.move id .pending .rejected).setTask n (.ofRejection d.rejectedKey))
      else none
    | _, _ => none
  | .commits id children =>
    (s.draft id).bind fun d =>
      if d.status = .pending then
        some { s.move id .pending .rejected with
          drafts := children.map d.part ++ (s.move id .pending .rejected).drafts }
      else none
  | .deletes n =>
    match s.tasks[n]? with
    | some (.deleting key) => some ((s.delete key).setTask n .idle)
    | some (.sweeping (key :: left)) => some ((s.delete key).setTask n (.sweeping left))
    | _ => none
  | .skips n =>
    match s.tasks[n]? with
    | some (.sweeping (_ :: left)) => some (s.setTask n (.sweeping left))
    | _ => none
  | .ends n => some (s.setTask n .idle)
  | .lists n =>
    match s.tasks[n]? with
    | some .idle => some (s.setTask n (.listing []))
    | _ => none
  | .finds n key =>
    match s.tasks[n]?, s.objects key with
    | some (.listing found), some modified =>
      some (s.setTask n (.listing ((key, modified) :: found)))
    | _, _ => none
  | .reads n =>
    match s.tasks[n]? with
    | some (.listing found) => some (s.setTask n (.sweeping (s.orphans C found)))
    | _ => none

def next (C : Config) (s : State) (op : Op) : Option (Op × State) :=
  (after C s op).map fun t => (op, t)

def Step (C : Config) : State → Op → State → Prop := By (next C)

theorem step_iff {C : Config} {s t : State} {op : Op} : Step C s op t ↔ after C s op = some t := by
  constructor
  · rintro ⟨op', h⟩
    obtain ⟨t', hafter, heq⟩ := Option.map_eq_some_iff.mp h
    cases heq
    exact hafter
  · intro h
    exact ⟨op, by rw [next, h]; rfl⟩

/-! ### What is promised -/

def Task.Dooms (key : Text) : Task → Prop
  | .deleting k => k = key
  | .sweeping left => key ∈ left
  | _ => False

instance (key : Text) : DecidablePred (Task.Dooms key)
  | .deleting k => inferInstanceAs (Decidable (k = key))
  | .sweeping left => inferInstanceAs (Decidable (key ∈ left))
  | .idle | .cleared _ | .stored _ _ | .created _ _ | .listing _ => isFalse id

namespace State

variable (s : State) (key : Text)

def Doomed : Prop := ∃ task ∈ s.tasks, task.Dooms key

/-- A draft that can still be decided has the key, or the source of an article, or a version of a
connector's document. -/
def Referenced : Prop :=
  (∃ d ∈ s.drafts, d.undecided = true ∧ d.storageKey = some key) ∨ key ∈ s.sources ∨
    key ∈ s.versions

instance : Decidable (s.Doomed key) :=
  inferInstanceAs (Decidable (∃ task ∈ s.tasks, task.Dooms key))

instance : Decidable (s.Referenced key) := inferInstanceAs (Decidable (_ ∨ _ ∨ _))

end State

/-- What is referenced after a step, and was stored before it, is stored. -/
def Kept (s t : State) : Prop :=
  ∀ key, t.Referenced key → (s.objects key).isSome = true → (t.objects key).isSome = true

/-- The key, where there is one, has the property. -/
def Names (key : Option Text) (P : Text → Prop) : Prop := ∀ k ∈ key, P k

instance (key : Option Text) (P : Text → Prop) [DecidablePred P] : Decidable (Names key P) :=
  inferInstanceAs (Decidable (∀ k ∈ key, P k))

/-- The key of an upload that has put its object. -/
def Task.putKey : Task → Option Text
  | .stored _ key => some key
  | .created _ key => some key
  | _ => none

/-- A deletion is decided on where no other row has the key, and a row is made where no deletion of
its key is decided on. -/
def Careful (C : Config) (s : State) : Op → Prop
  | .abandons _ id => Names ((s.draft id).bind (·.storageKey)) fun key => s.objects key = none
  | .creates n _ => Names ((s.tasks[n]?).bind Task.putKey) fun key => ¬ s.Doomed key
  | .intends _ u => Names (C.keyOf u) fun key => ¬ s.Doomed key
  | .fails n => Names ((s.tasks[n]?).bind Task.putKey) fun key => ¬ s.Referenced key
  | .discards id =>
    Names ((s.draft id).bind (·.storageKey)) fun key =>
      ¬ (s.move id .draft .rejected).Referenced key
  | .rejects _ id =>
    Names ((s.draft id).bind (·.rejectedKey)) fun key =>
      ¬ (s.move id .pending .rejected).Referenced key
  | _ => True

instance (C : Config) (s : State) : DecidablePred (Careful C s)
  | .abandons _ _ | .creates _ _ | .intends _ _ | .fails _ | .discards _ | .rejects _ _ =>
    inferInstanceAs (Decidable (Names _ _))
  | .passes _ | .stores _ _ | .revokes _ | .puts _ | .completes _ | .submits _ | .approves _
  | .commits _ _ | .deletes _ | .skips _ | .ends _ | .lists _ | .finds _ _ | .reads _ =>
    isTrue trivial

/-- No object of a key in use is about to be deleted. -/
def Sound (s : State) : Prop := ∀ key, s.Doomed key → ¬ s.Referenced key

/-- Rows and objects of any kind, and no task under way. -/
def Initial (s : State) : Prop := ∀ task ∈ s.tasks, task = .idle

end QnscKb.Storage.Objects
