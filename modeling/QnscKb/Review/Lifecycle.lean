import QnscKb.Review.Separation
import QnscKb.Review.Transitions

/-!
# Review — Lifecycle

The state machine of a draft: its status moves along the table of `_transition_draft`, each move
adds the transition row that says so (`TrackedTo`), and a draft is published once.  The table is
asked about the session's object, so a decision is right where the object still has the status of
the row (`Current`).
-/

namespace QnscKb.Transitions
open QnscKb.Access QnscKb.Where QnscKb.Review QnscKb.Runs

/-! ### The property -/

def statusIn (w : Workflow) (id : Id) : Option DraftStatus :=
  (w.drafts.find? fun d => d.id == id).map (·.status)

/-- A status stays, without a row, or moves along the table, with one row of its two ends. -/
def Moved (before after : DraftStatus) (rows : List DraftTransition) : Prop :=
  before = after ∧ rows = [] ∨
    after ∈ allowedTransitions before ∧
      ∃ row, rows = [row] ∧ row.fromStatus = some before ∧ row.toStatus = after

/-- Every draft stays or moves as its new transition rows say. -/
def TrackedTo (s t : Board) : Prop :=
  ∃ rows, t.transitions = rows ++ s.transitions ∧
    ∀ id before, statusIn s.workflow id = some before →
      ∃ after, statusIn t.workflow id = some after ∧
        Moved before after (rows.filter fun row => row.draftId == id)

/-- The step of an operation is tracked. -/
def Tracked (s : Board) (op : Op) : Prop :=
  ∀ t, Step s op t → TrackedTo s t

/-- What approvals of a draft published. -/
def publicationsOf (s : Board) (id : Id) : List (Id × Publication) :=
  s.publications.filter fun p => p.1 == id

/-! ### The condition -/

def hasStatus (s : Board) (id : Id) (status : DraftStatus) : Bool :=
  (statusIn s.workflow id).all fun st => st == status

/-- What the session holds of the draft has the status of the row. -/
def upToDate (s : Board) (session id : Id) : Bool :=
  ((s.copies session).find? fun d => d.id == id).all fun d => hasStatus s id d.status

/-- The session decides what the row says; an upload does not fail. -/
def current (s : Board) : Op → Bool
  | .submit session _ id _ => upToDate s session id
  | .approve session _ id _ _ _ => upToDate s session id
  | .reject session _ id _ => upToDate s session id
  | .closeParent session _ id => upToDate s session id
  | .writeDeleted session _ =>
    (s.deleting session).drafts.all fun d => hasStatus s d.id d.status
  | .failUpload actor id => (failedUpload s actor id).isNone
  | _ => true

def Current (s : Board) (op : Op) : Prop := current s op = true

instance (s : Board) (op : Op) : Decidable (Current s op) :=
  inferInstanceAs (Decidable (_ = true))

variable {w : Workflow}

variable {d : WorkflowDraft}

theorem statusIn_of_mem (h : d ∈ w.drafts) : statusIn w d.id = some d.status := by
  rw [statusIn, find?_key w.ids h]
  rfl

theorem exists_of_statusIn {id : Id} {status : DraftStatus} (h : statusIn w id = some status) :
    ∃ d ∈ w.drafts, d.id = id ∧ d.status = status := by
  obtain ⟨d, hfind, hstatus⟩ := Option.map_eq_some_iff.mp h
  exact ⟨d, List.mem_of_find?_eq_some hfind, by simpa using List.find?_some hfind, hstatus⟩

theorem statusIn_congr {w' : Workflow}
    (h : w'.drafts.map (fun d => (d.id, d.status)) = w.drafts.map fun d => (d.id, d.status))
    (id : Id) : statusIn w' id = statusIn w id := by
  have hfind : ∀ rows : List WorkflowDraft, (rows.find? fun d => d.id == id).map (·.status) =
      ((rows.map fun d => (d.id, d.status)).find? fun p => p.1 == id).map (·.2) := by
    intro rows
    rw [List.find?_map, Option.map_map]
    rfl
  rw [statusIn, hfind, h, ← hfind, ← statusIn]

theorem statusIn_map {w' : Workflow} {f : WorkflowDraft → WorkflowDraft}
    (hw : w'.drafts = w.drafts.map f) (hid : ∀ d, (f d).id = d.id) (id : Id) :
    statusIn w' id = (w.drafts.find? fun d => d.id == id).map fun d => (f d).status := by
  rw [statusIn, hw, List.find?_map, Option.map_map,
    show ((fun d : WorkflowDraft => d.id == id) ∘ f) = fun d => d.id == id from
      funext fun d => by rw [Function.comp, hid]]
  rfl

/-! ### Moves -/

theorem statusIn_move (s : Board) (session : Id) (moves : List Move) (id : Id) :
    statusIn (s.move session moves).workflow id =
      match moves.find? fun m => m.draftId == id with
      | some m => (statusIn s.workflow id).map fun _ => m.toStatus
      | none => statusIn s.workflow id := by
  rw [statusIn_map rfl (applyAll_id moves)]
  unfold statusIn
  cases hfind : s.workflow.drafts.find? fun d => d.id == id with
  | none => cases moves.find? fun m => m.draftId == id <;> rfl
  | some d =>
    have hid : d.id = id := by simpa using List.find?_some hfind
    simp only [Option.map_some, applyAll, hid]
    cases moves.find? fun m => m.draftId == id with
    | none => rfl
    | some m => rfl

theorem filter_rows {moves : List Move} (h : (moves.map (·.draftId)).Nodup) (id : Id) :
    (moves.map Move.row).filter (fun row => row.draftId == id) =
      ((moves.find? fun m => m.draftId == id).map Move.row).toList := by
  induction moves with
  | nil => rfl
  | cons m moves ih =>
    obtain ⟨hnot, hnodup⟩ := List.nodup_cons.mp h
    by_cases hm : m.draftId = id
    · have hnone : moves.find? (fun m => m.draftId == id) = none := by
        refine List.find?_eq_none.mpr fun m' hm' => ?_
        rw [beq_iff_eq, ← hm]
        exact fun heq => hnot (List.mem_map.mpr ⟨m', hm', heq⟩)
      rw [List.map_cons, List.filter_cons_of_pos (by simpa [Move.row] using hm), ih hnodup, hnone,
        List.find?_cons_of_pos (by simpa using hm)]
      rfl
    · rw [List.map_cons, List.filter_cons_of_neg (by simpa [Move.row] using hm), ih hnodup,
        List.find?_cons_of_neg (by simpa using hm)]

/-- **Moves of different drafts are tracked** exactly when the drafts have the statuses the moves
start from. -/
theorem tracked_move_iff (s : Board) (session : Id) {moves : List Move}
    (h : (moves.map (·.draftId)).Nodup) :
    TrackedTo s (s.move session moves) ↔ ∀ m ∈ moves, hasStatus s m.draftId m.fromStatus = true := by
  constructor
  · rintro ⟨rows, hrows, htracked⟩ m hm
    obtain rfl := List.append_cancel_right hrows
    have hfind := find?_key h hm
    unfold hasStatus
    cases hstatus : statusIn s.workflow m.draftId with
    | none => rfl
    | some before =>
      obtain ⟨after, hafter, hmoved⟩ := htracked m.draftId before hstatus
      rw [filter_rows h, hfind] at hmoved
      rcases hmoved with ⟨-, hnil⟩ | ⟨-, row, hrow, hfrom, -⟩
      · cases hnil
      · cases hrow
        simpa [Move.row] using hfrom.symm
  · intro hcurrent
    refine ⟨moves.map Move.row, rfl, fun id before hbefore => ?_⟩
    rw [statusIn_move, filter_rows h, hbefore]
    cases hfind : moves.find? fun m => m.draftId == id with
    | none => exact ⟨before, rfl, .inl ⟨rfl, rfl⟩⟩
    | some m =>
      have hid : m.draftId = id := by simpa using List.find?_some hfind
      have hfrom := hcurrent m (List.mem_of_find?_eq_some hfind)
      rw [hid, hasStatus, hbefore] at hfrom
      have hfrom : before = m.fromStatus := by simpa using hfrom
      subst hfrom
      exact ⟨m.toStatus, rfl, .inr ⟨m.allowed, m.row, rfl, rfl, rfl⟩⟩

theorem tracked_move_one_iff (s : Board) (session : Id) (m : Move) :
    TrackedTo s (s.move session [m]) ↔ hasStatus s m.draftId m.fromStatus = true := by
  have hnodup : ([m].map (·.draftId)).Nodup := List.nodup_singleton _
  rw [tracked_move_iff s session hnodup]
  simp

theorem tracked_of_same {s t : Board} (htransitions : t.transitions = s.transitions)
    (h : ∀ id, statusIn t.workflow id = statusIn s.workflow id) : TrackedTo s t :=
  ⟨[], htransitions, fun id before hbefore => ⟨before, (h id).trans hbefore, .inl ⟨rfl, rfl⟩⟩⟩

theorem tracked_insert {s : Board} (h : d.id ∉ s.workflow.drafts.map (·.id)) (awaiting : Bool)
    (document : Option Id) {rows : List DraftTransition}
    (hrows : ∀ row ∈ rows, row.draftId = d.id) :
    TrackedTo s (s.insert d h awaiting document rows) := by
  refine ⟨rows, rfl, fun id before hbefore => ?_⟩
  obtain ⟨row, hrow, rfl, -⟩ := exists_of_statusIn hbefore
  have hne : d.id ≠ row.id := fun heq => h (List.mem_map.mpr ⟨row, hrow, heq.symm⟩)
  have hstatus : statusIn (s.insert d h awaiting document rows).workflow row.id = some before := by
    rw [statusIn, show (s.insert d h awaiting document rows).workflow.drafts =
      d :: s.workflow.drafts from rfl, List.find?_cons_of_neg (by simpa using hne)]
    exact hbefore
  refine ⟨before, hstatus, .inl ⟨rfl, List.filter_eq_nil_iff.mpr fun r hr => ?_⟩⟩
  rw [hrows r hr]
  simpa using hne

/-! ### Calls -/

section Calls

variable {s : Board} {session : Id} {user : User} {id : Id} {m : Move}

variable {d : WorkflowDraft}

theorem row_of_load (h : s.load session id user = some d) :
    ∃ row ∈ s.workflow.drafts, row.id = id ∧
      d = ((s.copies session).find? fun d => d.id == id).getD row := by
  obtain ⟨row, hload, heq⟩ := Option.map_eq_some_iff.mp h
  have hfound := List.find?_some hload
  simp only [Bool.and_eq_true, beq_iff_eq] at hfound
  exact ⟨row, mem_of_load hload, hfound.1, heq.symm⟩

/-- A loaded draft has the key it was asked for, and the status of its row where the session is up
to date. -/
theorem load_status (h : s.load session id user = some d) :
    d.id = id ∧ hasStatus s id d.status = upToDate s session id := by
  obtain ⟨row, hmem, rfl, rfl⟩ := row_of_load h
  have hstatus := statusIn_of_mem hmem
  unfold upToDate
  cases hcopy : (s.copies session).find? fun d => d.id == row.id with
  | none => exact ⟨rfl, by simp [hasStatus, hstatus]⟩
  | some copy => exact ⟨by simpa using List.find?_some hcopy, rfl⟩

/-- The move is one of the loaded draft, from the status it was loaded with. -/
def MoveOf (s : Board) (session id : Id) (user : User) (m : Move) : Prop :=
  ∃ d, s.load session id user = some d ∧ m.draftId = d.id ∧ m.fromStatus = d.status

theorem MoveOf.hasStatus_eq (h : MoveOf s session id user m) :
    hasStatus s m.draftId m.fromStatus = upToDate s session id := by
  obtain ⟨d, hload, hid, hstatus⟩ := h
  obtain ⟨hdid, heq⟩ := load_status hload
  rw [hid, hstatus, hdid, heq]

theorem transition_ok {toStatus : DraftStatus} {approver : Option Id} {reason : Option String}
    (h : transition user d toStatus approver reason = .ok m) :
    m.draftId = d.id ∧ m.fromStatus = d.status ∧ m.toStatus = toStatus := by
  unfold transition at h
  split at h
  · cases h
    exact ⟨rfl, rfl, rfl⟩
  · cases h

theorem submit_ok {reason : Option String} (h : submit s session user id reason = .ok m) :
    MoveOf s session id user m := by
  unfold submit at h
  split at h
  · cases h
  rename_i d hload
  iterate 2
    split at h
    · cases h
  obtain ⟨hid, hfrom, -⟩ := transition_ok h
  exact ⟨d, hload, hid, hfrom⟩

theorem checkDecided_ok {participle verb : String}
    (h : checkDecided s session user id participle verb = .ok d) :
    s.load session id user = some d ∧ d.status = .pending := by
  unfold checkDecided at h
  split at h
  · cases h
  rename_i d hload
  split at h
  · cases h
  rename_i hstatus
  iterate 3
    split at h
    · cases h
  cases h
  exact ⟨hload, by simpa using hstatus⟩

theorem approve_ok {refusal : Option Refusal} {note : Option String}
    (h : approve s session user id refusal note = .ok m) :
    MoveOf s session id user m ∧ m.fromStatus = .pending ∧ m.toStatus = .approved := by
  obtain ⟨d, hd, h⟩ := bind_ok_iff.mp h
  obtain ⟨hload, hstatus⟩ := checkDecided_ok hd
  cases refusal with
  | some refusal => cases h
  | none =>
    obtain ⟨hid, hfrom, hto⟩ := transition_ok h
    exact ⟨⟨d, hload, hid, hfrom⟩, hfrom.trans hstatus, hto⟩

theorem reject_ok {note : String} (h : reject s session user id note = .ok m) :
    MoveOf s session id user m := by
  obtain ⟨d, hd, h⟩ := bind_ok_iff.mp h
  obtain ⟨hid, hfrom, -⟩ := transition_ok h
  exact ⟨d, (checkDecided_ok hd).1, hid, hfrom⟩

theorem closeParent_ok (h : closeParent s session user id = .ok m) :
    MoveOf s session id user m := by
  unfold closeParent at h
  split at h
  · cases h
  rename_i d hload
  iterate 3
    split at h
    · cases h
  obtain ⟨hid, hfrom, -⟩ := transition_ok h
  exact ⟨d, hload, hid, hfrom⟩

theorem moveOf_ok {actor : Id} {call : User → Except Refusal Move}
    (h : moveOf s actor call = some m) : ∃ user : Account, call user.toUser = .ok m := by
  unfold moveOf at h
  split at h
  · cases h
  · rename_i user _
    refine ⟨user, ?_⟩
    cases hcall : call user.toUser with
    | error refusal =>
      rw [hcall] at h
      cases h
    | ok m' =>
      rw [hcall] at h
      cases h
      rfl

theorem tracked_call_iff {actor : Id} {call : User → Except Refusal Move}
    (hcall : ∀ user m, call user = .ok m → MoveOf s session id user m)
    (h : moveOf s actor call = some m) :
    TrackedTo s (s.move session [m]) ↔ upToDate s session id = true := by
  obtain ⟨user, hok⟩ := moveOf_ok h
  rw [tracked_move_one_iff, (hcall _ _ hok).hasStatus_eq]

end Calls

/-! ### Operations that leave the statuses -/

def statuses (w : Workflow) : List (Id × DraftStatus) :=
  w.drafts.map fun d => (d.id, d.status)

theorem statuses_put {row : WorkflowDraft} (hrow : row ∈ w.drafts) (hid : d.id = row.id)
    (hstatus : d.status = row.status) : statuses (w.put d) = statuses w := by
  simp only [statuses, Workflow.put, List.map_map]
  refine List.map_congr_left fun r hr => ?_
  by_cases h : r.id = d.id
  · obtain rfl := List.inj_on_of_nodup_map w.ids hr hrow (h.trans hid)
    simp [h, hstatus]
  · simp [h]

theorem statuses_changedRow {id : Id} {cond : WorkflowDraft → Bool}
    {f : WorkflowDraft → WorkflowDraft} (hf : ∀ d, (f d).id = d.id ∧ (f d).status = d.status)
    {out : Event × Workflow} (h : changedRow w id cond f = some out) :
    statuses out.2 = statuses w := by
  unfold changedRow at h
  split at h
  · cases h
  · rename_i d hfind
    split at h
    · cases h
      exact statuses_put (List.mem_of_find?_eq_some hfind) (hf d).1 (hf d).2
    · cases h

theorem statuses_managing {op : Review.Op} (hop : managing op = true) {out : Event × Workflow}
    (h : Review.next w op = some out) : statuses out.2 = statuses w := by
  cases op with
  | create | submit | approve | reject | withdraw => cases hop
  | assign actor id approverId useRule =>
    simp only [Review.next, called] at h
    split at h
    · cases h
    · split at h
      · cases h
      · rename_i hok
        cases h
        obtain ⟨d, hd, -, a, -, -, rfl⟩ := assignApprover_ok hok
        exact statuses_put hd rfl rfl
  | prepare id preparing =>
    exact statuses_changedRow (f := fun d => { d with preparing := preparing })
      (fun _ => ⟨rfl, rfl⟩) h
  | route id dept =>
    exact statuses_changedRow (f := fun d => { d with dept := dept }) (fun _ => ⟨rfl, rfl⟩) h
  | setAccount a => cases h; rfl
  | setRules rules => cases h; rfl
  | deactivate a =>
    simp only [Review.next] at h
    split at h
    · cases h
    · cases h
      simp only [statuses, Workflow.deactivate, List.map_map]
      refine List.map_congr_left fun d _ => ?_
      simp only [Function.comp, Workflow.unassign]
      split <;> rfl

/-! ### One operation -/

section Steps

variable {s t : Board} {op : Op}

theorem step_iff : Step s op t ↔ after s op = some t := by
  constructor
  · rintro ⟨a, ha⟩
    obtain ⟨u, hu, heq⟩ := Option.map_eq_some_iff.mp ha
    cases heq
    exact hu
  · intro h
    exact ⟨op, by rw [next, h]; rfl⟩

theorem tracked_congr {u : Board} (hworkflow : u.workflow = t.workflow)
    (htransitions : u.transitions = t.transitions) : TrackedTo s u ↔ TrackedTo s t := by
  unfold TrackedTo
  rw [hworkflow, htransitions]

theorem not_tracked_failUpload {actor id : Id} {d : WorkflowDraft}
    (h : failedUpload s actor id = some d) :
    ¬ TrackedTo s { s with workflow := s.workflow.put { d with status := .rejected } } := by
  unfold failedUpload at h
  split at h
  · cases h
  obtain ⟨hload, hcond⟩ := Option.filter_eq_some_iff.mp h
  simp only [Bool.and_eq_true, beq_iff_eq] at hcond
  have hmem := mem_of_load hload
  have hbefore := statusIn_of_mem hmem
  rintro ⟨rows, hrows, htracked⟩
  obtain rfl : [] = rows := List.append_cancel_right hrows
  obtain ⟨after, hafter, hmoved⟩ := htracked d.id d.status hbefore
  have hput : { d with status := .rejected } ∈
      (s.workflow.put { d with status := .rejected }).drafts :=
    List.mem_map.mpr ⟨d, hmem, if_pos rfl⟩
  have hrejected := statusIn_of_mem hput
  rcases hmoved with ⟨heq, -⟩ | ⟨-, row, hrow, -⟩
  · have hsame : some d.status = some DraftStatus.rejected := by
      rw [heq, ← hafter]
      exact hrejected
    rw [hcond.1.2] at hsame
    cases hsame
  · cases hrow

theorem moves_draftId (x : Deletion) (actor : Option Id) :
    (x.moves actor).map (·.draftId) = x.drafts.map (·.id) := by
  rw [Deletion.moves, List.map_map]
  exact List.attach_map_val (f := fun d : WorkflowDraft => d.id)

theorem forall_moves_iff (x : Deletion) (actor : Option Id) (p : Id → DraftStatus → Bool) :
    (∀ m ∈ x.moves actor, p m.draftId m.fromStatus = true) ↔
      ∀ d ∈ x.drafts, p d.id d.status = true := by
  constructor
  · intro h d hd
    exact h _ (List.mem_map.mpr ⟨⟨d, hd⟩, List.mem_attach _ _, rfl⟩)
  · intro h m hm
    obtain ⟨d, -, rfl⟩ := List.mem_map.mp hm
    exact h d.1 d.2

/-- **One operation** is tracked exactly when the session it acts in is up to date. -/
theorem tracked_iff_current (hstep : Step s op t) : Tracked s op ↔ Current s op := by
  have hafter := step_iff.mp hstep
  have htracked : Tracked s op ↔ TrackedTo s t := by
    constructor
    · intro h
      exact h t hstep
    · intro h u hu
      rw [step_iff, hafter] at hu
      cases hu
      exact h
  rw [htracked, Current]
  cases op with
  | create | importConnector | importLocal =>
    simp only [after] at hafter
    split at hafter
    · split at hafter
      · cases hafter
        simp only [current, iff_true]
        exact tracked_insert _ _ _ (by simp)
      · cases hafter
    · cases hafter
  | submit session actor id reason =>
    obtain ⟨m, hm, rfl⟩ := Option.map_eq_some_iff.mp hafter
    exact tracked_call_iff (fun _ _ h => submit_ok h) hm
  | approve session actor id refusal note publication =>
    obtain ⟨m, hm, rfl⟩ := Option.map_eq_some_iff.mp hafter
    exact tracked_call_iff (fun _ _ h => (approve_ok h).1) hm
  | reject session actor id note =>
    obtain ⟨m, hm, rfl⟩ := Option.map_eq_some_iff.mp hafter
    exact tracked_call_iff (fun _ _ h => reject_ok h) hm
  | closeParent session actor id =>
    obtain ⟨m, hm, rfl⟩ := Option.map_eq_some_iff.mp hafter
    exact tracked_call_iff (fun _ _ h => closeParent_ok h) hm
  | failUpload actor id =>
    obtain ⟨d, hd, rfl⟩ := Option.map_eq_some_iff.mp hafter
    simp only [current, hd, Option.isNone_some, Bool.false_eq_true, iff_false]
    exact not_tracked_failUpload hd
  | scan | readDeleted | forget =>
    cases hafter
    simp only [current, iff_true]
    exact tracked_of_same rfl fun _ => rfl
  | writeDeleted session actor =>
    cases hafter
    have hnodup : (((s.deleting session).moves actor).map (·.draftId)).Nodup := by
      rw [moves_draftId]
      exact (s.deleting session).ids
    refine (tracked_congr (t := s.move session ((s.deleting session).moves actor)) rfl
      rfl).trans ?_
    rw [tracked_move_iff s session hnodup, forall_moves_iff _ _ (hasStatus s), current,
      List.all_eq_true]
  | manage op =>
    simp only [after] at hafter
    split at hafter
    · rename_i hop
      obtain ⟨out, hout, rfl⟩ := Option.map_eq_some_iff.mp hafter
      simp only [current, iff_true]
      exact tracked_of_same rfl (statusIn_congr (statuses_managing hop hout))
    · cases hafter

/-! ### Publications -/

/-- A draft that was published is approved, and was published once. -/
def Once (s : Board) : Prop :=
  ∀ id, publicationsOf s id = [] ∨
    (publicationsOf s id).length = 1 ∧ statusIn s.workflow id = some .approved

theorem initial_once (h : Initial s) : Once s :=
  fun id => .inl (by rw [publicationsOf, h.publications]; rfl)

theorem TrackedTo.approved (h : TrackedTo s t) {id : Id}
    (hs : statusIn s.workflow id = some .approved) : statusIn t.workflow id = some .approved := by
  obtain ⟨rows, -, hrows⟩ := h
  obtain ⟨after, hafter, hmoved⟩ := hrows id .approved hs
  rcases hmoved with ⟨rfl, -⟩ | ⟨hmem, -⟩
  · exact hafter
  · cases hmem

theorem Once.keep (h : Once s) (htracked : TrackedTo s t)
    (hpublications : t.publications = s.publications) : Once t := by
  intro id
  have hsame : publicationsOf t id = publicationsOf s id := by
    rw [publicationsOf, hpublications, publicationsOf]
  rw [hsame]
  exact (h id).imp_right fun ⟨hlength, hstatus⟩ => ⟨hlength, htracked.approved hstatus⟩

theorem Once.approve (h : Once s) {session id : Id} {m : Move} {publication : Publication}
    (htracked : TrackedTo s (s.move session [m])) (hid : m.draftId = id)
    (hfrom : m.fromStatus = .pending) (hto : m.toStatus = .approved)
    (hrow : ∃ status, statusIn s.workflow id = some status) :
    Once { s.move session [m] with publications := (id, publication) :: s.publications } := by
  obtain ⟨status, hstatus⟩ := hrow
  have hpending := (tracked_move_one_iff s session m).mp htracked
  rw [hid, hfrom, hasStatus, hstatus] at hpending
  have hpending : status = .pending := by simpa using hpending
  intro other
  by_cases hother : id = other
  · subst hother
    right
    have hnone : publicationsOf s id = [] := by
      refine (h id).resolve_right fun ⟨_, happroved⟩ => ?_
      rw [hstatus, hpending] at happroved
      cases happroved
    refine ⟨?_, ?_⟩
    · rw [publicationsOf, List.filter_cons_of_pos (by simp), ← publicationsOf, hnone]
      rfl
    · rw [show statusIn _ id = statusIn (s.move session [m]).workflow id from rfl, statusIn_move,
        List.find?_cons_of_pos (by simpa using hid), hstatus, ← hto]
      rfl
  · rw [publicationsOf, List.filter_cons_of_neg (by simpa using hother)]
    exact (h other).imp_right fun ⟨hlength, happroved⟩ => ⟨hlength, htracked.approved happroved⟩

theorem Once.step (h : Once s) (hcurrent : Current s op) (hstep : Step s op t) : Once t := by
  have htracked : TrackedTo s t := (tracked_iff_current hstep).mpr hcurrent t hstep
  have hafter := step_iff.mp hstep
  cases op with
  | approve session actor id refusal note publication =>
    obtain ⟨m, hm, rfl⟩ := Option.map_eq_some_iff.mp hafter
    obtain ⟨user, hok⟩ := moveOf_ok hm
    obtain ⟨⟨d, hload, hid, -⟩, hfrom, hto⟩ := approve_ok hok
    have hdid := (load_status hload).1
    obtain ⟨row, hrow, hrowid, -⟩ := row_of_load hload
    have hstatus : ∃ status, statusIn s.workflow id = some status :=
      ⟨row.status, hrowid ▸ statusIn_of_mem hrow⟩
    exact h.approve ((tracked_congr rfl rfl).mp htracked) (hid.trans hdid) hfrom hto hstatus
  | create | importConnector | importLocal =>
    simp only [after] at hafter
    split_ifs at hafter
    cases hafter
    exact h.keep htracked rfl
  | submit | reject | closeParent | failUpload =>
    obtain ⟨m, -, rfl⟩ := Option.map_eq_some_iff.mp hafter
    exact h.keep htracked rfl
  | scan | readDeleted | writeDeleted | forget =>
    cases hafter
    exact h.keep htracked rfl
  | manage op =>
    simp only [after] at hafter
    split_ifs at hafter
    obtain ⟨out, -, rfl⟩ := Option.map_eq_some_iff.mp hafter
    exact h.keep htracked rfl

end Steps

/-- **The state machine of a draft.**  Every status moves along the table with its row, and no draft
is published twice, exactly when each call acts in a session that is up to date and no upload fails.
-/
theorem drafts_tracked_iff {tr : List (Board × Op)} {s : Board} (r : Run Initial Step tr s) :
    (Throughout Tracked tr ∧ ∀ id, (publicationsOf s id).length ≤ 1) ↔ Throughout Current tr := by
  have hiff : Throughout Tracked tr ↔ Throughout Current tr :=
    r.throughout_iff fun _ _ _ hstep => tracked_iff_current hstep
  constructor
  · intro h
    exact hiff.mp h.1
  · intro hcurrent
    refine ⟨hiff.mpr hcurrent, fun id => ?_⟩
    have honce : Once s := r.invariant (fun _ h => initial_once h)
      (fun _ _ _ h hc hstep => h.step hc hstep) hcurrent
    rcases honce id with hnone | ⟨hone, -⟩
    · rw [hnone]
      exact Nat.zero_le 1
    · exact hone.le

/-! ### A draft published twice -/

def admin : Account where
  id := 3
  companyDomain := "qnsc.vn"
  dept := none
  role := "Admin"
  departments := []
  departmentOwnerships := []
  roles := []
  active := true

def emptyBoard : Board where
  workflow := ⟨[author, admin], [], [], List.nodup_nil⟩
  awaitingUpload := fun _ => false
  externalDocumentId := fun _ => none
  transitions := []
  publications := []
  copies := fun _ => []
  deleting := fun _ => .nothing

theorem initial_emptyBoard : Initial emptyBoard := ⟨rfl, rfl, rfl, fun _ => rfl⟩

def approvedOnce : List Op :=
  [.create submission false none "Draft created", .submit 10 1 7 none,
    .approve 30 3 7 none none (.created 100)]

theorem drafts_tracked_iff_approvedOnce :
    Throughout Tracked ((play next [] emptyBoard approvedOnce).get (by decide)).1 ∧
      ∀ id, (publicationsOf ((play next [] emptyBoard approvedOnce).get (by decide)).2 id).length
        ≤ 1 :=
  (drafts_tracked_iff (run_play initial_emptyBoard (by decide))).mpr (by decide)

/-- The agent has loaded the queue when the Admin approves the draft, and approves it after. -/
def approvedTwice : List Op :=
  [.create submission false none "Draft created", .submit 10 1 7 none, .scan 20 "qnsc.vn",
    .approve 30 3 7 none none (.created 100), .approve 20 3 7 none none (.created 101)]

theorem approvedTwice_plays : (play next [] emptyBoard approvedTwice).isSome = true := by decide

/-- The agent loads a pending draft, a reviewer approves it, the agent approves it. -/
theorem published_twice :
    ¬ ∀ (tr : List (Board × Op)) (s : Board), Run Initial Step tr s →
      Throughout Tracked tr ∧ ∀ id, (publicationsOf s id).length ≤ 1 := by
  intro h
  have hrun := h _ _ (run_play initial_emptyBoard approvedTwice_plays)
  have htwo : (publicationsOf ((play next [] emptyBoard approvedTwice).get
      approvedTwice_plays).2 7).length = 2 := by decide
  have hone := hrun.2 7
  exact absurd hone (by decide)

end QnscKb.Transitions
