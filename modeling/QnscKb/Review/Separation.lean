import QnscKb.Access.Agreement
import QnscKb.Review.Workflow

/-!
# Review — Separation of duties

Whoever approves a draft must be *fit* for it: hold `article.review` or `article.publish` in a scope
that covers it, and not be its author unless an Admin or CEO.

An approver is fit when assigned, but the approval asks only whether they are the assigned one.  So
the assignment has to stay right while users change (`Standing`), and the Admin or CEO has to hold
the permission by other means.
-/

namespace QnscKb.Review
open QnscKb.Access QnscKb.Where QnscKb.Runs

/-! ### The property -/

/-- May review the draft, and is not its author unless exempt. -/
def Fit (u : User) (d : PendingDraft) : Prop :=
  canReviewDraft u d = true ∧ ownUnprivileged u d = false

instance (u : User) (d : PendingDraft) : Decidable (Fit u d) :=
  inferInstanceAs (Decidable (_ ∧ _))

/-- A draft is approved by a fit person only. -/
def Separated (_ : Workflow) : Event → Prop
  | .approved user d => Fit user.toUser d.toPendingDraft
  | _ => True

/-- A change of a user leaves no pending draft assigned to somebody unfit, and an Admin or CEO who
approves may review the draft or is the assigned approver. -/
def KeepsAssignments (s : Workflow) : Event → Prop
  | .changed a => ∀ d ∈ s.drafts, d.status = .pending → d.assignedApproverId = some a.id →
      Fit a.toUser d.toPendingDraft
  | .approved user d => maySelfApprove user.toUser = true →
      d.assignedApproverId = some user.id ∨ canReviewDraft user.toUser d.toPendingDraft = true
  | .quiet => True

instance (s : Workflow) : (e : Event) → Decidable (KeepsAssignments s e)
  | .changed a => inferInstanceAs (Decidable (∀ d ∈ s.drafts, d.status = .pending →
      d.assignedApproverId = some a.id → Fit a.toUser d.toPendingDraft))
  | .approved user d => inferInstanceAs (Decidable (maySelfApprove user.toUser = true →
      d.assignedApproverId = some user.id ∨ canReviewDraft user.toUser d.toPendingDraft = true))
  | .quiet => isTrue trivial

/-! ### The invariant -/

/-- What a row says of the users: only a submitted draft has an approver, and the approver of a
pending one is fit. -/
structure RowOk (account : Id → Option Account) (d : WorkflowDraft) : Prop where
  unassigned : d.status = .draft → d.assignedApproverId = none
  fit : d.status = .pending → ∀ id a, d.assignedApproverId = some id → account id = some a →
    Fit a.toUser d.toPendingDraft

/-- Every assignment stands. -/
def Standing (s : Workflow) : Prop := ∀ d ∈ s.drafts, RowOk s.account d

variable {d : WorkflowDraft}

theorem RowOk.of_unassigned {account : Id → Option Account} (h : d.assignedApproverId = none) :
    RowOk account d :=
  ⟨fun _ => h, fun _ id a hid => by rw [h] at hid; cases hid⟩

theorem RowOk.of_decided {account : Id → Option Account}
    (h : d.status = .approved ∨ d.status = .rejected) : RowOk account d := by
  rcases h with h | h
  · exact ⟨fun hd => absurd (h.symm.trans hd) (by decide),
      fun hp => absurd (h.symm.trans hp) (by decide)⟩
  · exact ⟨fun hd => absurd (h.symm.trans hd) (by decide),
      fun hp => absurd (h.symm.trans hp) (by decide)⟩

theorem mem_put {s : Workflow} {row : WorkflowDraft} (h : row ∈ (s.put d).drafts) :
    row = d ∨ row ∈ s.drafts := by
  obtain ⟨old, hold, rfl⟩ := List.mem_map.mp h
  by_cases hid : old.id = d.id
  · rw [if_pos hid]
    exact Or.inl rfl
  · rw [if_neg hid]
    exact Or.inr hold

theorem Standing.put {s : Workflow} (h : Standing s) (hd : RowOk s.account d) :
    Standing (s.put d) := by
  intro row hrow
  rcases mem_put hrow with rfl | hold
  · exact hd
  · exact h row hold

theorem account_setAccount (s : Workflow) (a : Account) (id : Id) :
    (s.setAccount a).account id = if a.id = id then some a else s.account id := by
  unfold Workflow.setAccount Workflow.account
  by_cases h : a.id = id
  · simp [h]
  · rw [if_neg h, List.find?_cons_of_neg (by simpa using h), List.find?_filter]
    congr 1
    funext b
    by_cases hb : b.id = id
    · simp [hb, Ne.symm h]
    · simp [hb]

/-! ### What each call does -/

section Calls

variable {s : Workflow} {user : User} {id : Id} {d' : WorkflowDraft}

variable {d : WorkflowDraft}

theorem mem_of_load (h : s.load id user = some d) : d ∈ s.drafts :=
  List.mem_of_find?_eq_some h

theorem transitionDraft_ok {toStatus : DraftStatus} (h : transitionDraft d toStatus = .ok d') :
    d' = { d with status := toStatus } := by
  unfold transitionDraft at h
  split at h
  · cases h
  · cases h; rfl

theorem account_of_getById {viewer : User} {a : Account} (h : s.getById id viewer = some a) :
    s.account id = some a ∧ a.id = id := by
  have hfound := (Option.filter_eq_some_iff.mp h).1
  exact ⟨hfound, by simpa using List.find?_some hfound⟩

theorem ruleApprover_fit {d : PendingDraft} {approver : Id}
    (h : ruleApprover s user d = some approver) :
    ∃ a, a.id = approver ∧ s.account a.id = some a ∧ Fit a.toUser d := by
  unfold ruleApprover at h
  split at h
  · cases h
  · split at h
    · cases h
    · rename_i a ha
      split at h
      · rename_i hfit
        obtain ⟨haccount, hid⟩ := account_of_getById ha
        simp only [Bool.and_eq_true, Bool.not_eq_true'] at hfit
        exact ⟨a, Option.some.inj h, hid ▸ haccount, hfit.1.2, hfit.2⟩
      · cases h

theorem submitDraft_ok (h : submitDraft s user id = .ok d') :
    ∃ d ∈ s.drafts, d.status = .draft ∧
      (d' = { d with status := .pending } ∨
        ∃ a, s.account a.id = some a ∧ Fit a.toUser d.toPendingDraft ∧
          d' = { d with status := .pending, assignedApproverId := some a.id }) := by
  unfold submitDraft at h
  split at h
  · cases h
  rename_i d hload
  split at h
  · cases h
  split at h
  · cases h
  rename_i hstatus
  refine ⟨d, mem_of_load hload, by simpa using hstatus, ?_⟩
  obtain ⟨moved, hmoved, h⟩ := bind_ok_iff.mp h
  obtain rfl := transitionDraft_ok hmoved
  split at h
  · rename_i approver hrule
    obtain ⟨a, rfl, haccount, hfit⟩ := ruleApprover_fit hrule
    cases h
    exact Or.inr ⟨a, haccount, hfit, rfl⟩
  · cases h
    exact Or.inl rfl

theorem assignApprover_ok {approverId : Option Id} {useRule : Bool}
    (h : assignApprover s user id approverId useRule = .ok d') :
    ∃ d ∈ s.drafts, d.status = .pending ∧
      ∃ a, s.account a.id = some a ∧ Fit a.toUser d.toPendingDraft ∧
        d' = { d with assignedApproverId := some a.id } := by
  unfold assignApprover at h
  split at h
  · cases h
  rename_i d hload
  split at h
  · cases h
  rename_i hstatus
  split at h
  · cases h
  split at h
  · cases h
  refine ⟨d, mem_of_load hload, by simpa using hstatus, ?_⟩
  obtain ⟨requested, -, h⟩ := bind_ok_iff.mp h
  split at h
  · cases h
  split at h
  · cases h
  rename_i a ha
  obtain ⟨haccount, hid⟩ := account_of_getById (Option.filter_eq_some_iff.mp ha).1
  split at h
  · cases h
  rename_i hown
  split at h
  · cases h
  rename_i hreview
  split at h
  · cases h
  cases h
  exact ⟨a, hid ▸ haccount, ⟨by simpa using hreview, by simpa using hown⟩, rfl⟩

theorem checkDecision_ok {participle verb : String}
    (h : checkDecision s user id participle verb = .ok d) :
    d ∈ s.drafts ∧ d.status = .pending ∧ canApproveDraft user d.toPendingDraft = true := by
  unfold checkDecision at h
  split at h
  · cases h
  rename_i d hload
  split at h
  · cases h
  rename_i hstatus
  split at h
  · cases h
  split at h
  · cases h
  split at h
  · cases h
  rename_i happrove
  cases h
  exact ⟨mem_of_load hload, by simpa using hstatus, by simpa using happrove⟩

theorem approveDraft_ok {publication : Option Refusal}
    (h : approveDraft s user id publication = .ok d') :
    ∃ d ∈ s.drafts, d.status = .pending ∧ canApproveDraft user d.toPendingDraft = true ∧
      d' = { d with status := .approved } := by
  obtain ⟨d, hd, h⟩ := bind_ok_iff.mp h
  obtain ⟨hmem, hstatus, happrove⟩ := checkDecision_ok hd
  cases publication with
  | some refusal => cases h
  | none => exact ⟨d, hmem, hstatus, happrove, transitionDraft_ok h⟩

theorem rejectDraft_ok (h : rejectDraft s user id = .ok d') :
    ∃ d ∈ s.drafts, d' = { d with status := .rejected } := by
  obtain ⟨d, hd, h⟩ := bind_ok_iff.mp h
  exact ⟨d, (checkDecision_ok hd).1, transitionDraft_ok h⟩

/-- A draft without a department is reviewed by company or global grants, and these do not look
at the department it is given. -/
theorem canReviewDraft_route {d : PendingDraft} (hd : d.dept = none) (dept : Option String)
    (h : canReviewDraft user d = true) : canReviewDraft user { d with dept := dept } = true := by
  have hcovers : ∀ key, covers user key d.resource = true →
      covers user key ({ d with dept := dept } : PendingDraft).resource = true := by
    intro key hkey
    rw [covers_eq] at hkey ⊢
    simp only [PendingDraft.resource, resourceDepartments, hd, List.map_nil, Option.toList_none,
      List.append_nil, meets_nil_left, Bool.and_false, Bool.or_false,
      beq_eq_false_iff_ne.mpr (Option.some_ne_none user.id).symm] at hkey ⊢
    rw [hkey, Bool.true_or]
  rw [canReviewDraft, Bool.or_eq_true] at h ⊢
  exact h.imp (hcovers _) (hcovers _)

end Calls

/-! ### One step -/

section OneStep

variable {s t : Workflow} {e : Event}

theorem Standing.called (h : Standing s) {actor : Id} {f : User → Except Refusal WorkflowDraft}
    {event : Account → Event}
    (hstep : called s actor f event = some (e, t))
    (hf : ∀ user d, f user = .ok d → RowOk s.account d) : Standing t := by
  unfold Review.called at hstep
  split at hstep
  · cases hstep
  split at hstep
  · cases hstep
  rename_i d hd
  cases hstep
  exact h.put (hf _ d hd)

theorem Standing.changedRow (h : Standing s) {id : Id} {cond : WorkflowDraft → Bool}
    {f : WorkflowDraft → WorkflowDraft} (hstep : changedRow s id cond f = some (e, t))
    (hf : ∀ d, cond d = true → RowOk s.account d → RowOk s.account (f d)) : Standing t := by
  unfold Review.changedRow at hstep
  split at hstep
  · cases hstep
  rename_i d hd
  split at hstep
  · rename_i hcond
    cases hstep
    exact h.put (hf d hcond (h d (List.mem_of_find?_eq_some hd)))
  · cases hstep

theorem Standing.setAccount (h : Standing s) {a : Account}
    (hc : KeepsAssignments s (.changed a)) : Standing (s.setAccount a) := by
  intro d hd
  refine ⟨(h d hd).unassigned, fun hp id b hid hb => ?_⟩
  rw [account_setAccount] at hb
  split at hb
  · rename_i heq
    obtain rfl := Option.some.inj hb
    exact hc d hd hp (heq ▸ hid)
  · exact (h d hd).fit hp id b hid hb

theorem Standing.deactivate (h : Standing s) (a : Account) : Standing (s.deactivate a) := by
  intro row hrow
  obtain ⟨d, hd, rfl⟩ := List.mem_map.mp hrow
  unfold Workflow.unassign
  split
  · exact .of_unassigned rfl
  · rename_i hother
    refine ⟨(h d hd).unassigned, fun hp id b hid hb => ?_⟩
    have hne : a.id ≠ id := fun heq => hother ⟨heq ▸ hid, hp⟩
    refine (h d hd).fit hp id b hid ?_
    have hb' : (s.setAccount a).account id = some b := hb
    rwa [account_setAccount, if_neg hne] at hb'

theorem step_standing (h : Standing s) (hc : KeepsAssignments s e) (hstep : Step s e t) :
    Standing t := by
  obtain ⟨op, hop⟩ := hstep
  cases op with
  | create d =>
    simp only [next] at hop
    split at hop
    · split at hop
      · rename_i hnew
        cases hop
        intro row hrow
        rcases List.mem_cons.mp hrow with rfl | hold
        · exact .of_unassigned hnew.1
        · exact h row hold
      · cases hop
    · cases hop
  | submit actor id =>
    simp only [next] at hop
    refine h.called hop fun user d' hd' => ?_
    obtain ⟨d, hd, hstatus, rfl | ⟨a, ha, hfit, rfl⟩⟩ := submitDraft_ok hd'
    · exact .of_unassigned ((h d hd).unassigned hstatus)
    · refine ⟨(nomatch ·), fun _ id b hid hb => ?_⟩
      obtain rfl := Option.some.inj hid
      obtain rfl := Option.some.inj (ha.symm.trans hb)
      exact hfit
  | assign actor id approverId useRule =>
    simp only [next] at hop
    refine h.called hop fun user d' hd' => ?_
    obtain ⟨d, hd, hstatus, a, ha, hfit, rfl⟩ := assignApprover_ok hd'
    refine ⟨fun hdraft => absurd (hstatus.symm.trans hdraft) (by decide), fun _ id b hid hb => ?_⟩
    obtain rfl := Option.some.inj hid
    obtain rfl := Option.some.inj (ha.symm.trans hb)
    exact hfit
  | approve actor id publication =>
    simp only [next] at hop
    split at hop
    · cases hop
    split at hop
    · cases hop
    rename_i d' hd'
    cases hop
    obtain ⟨d, -, -, -, rfl⟩ := approveDraft_ok hd'
    exact h.put (.of_decided (Or.inl rfl))
  | reject actor id =>
    simp only [next] at hop
    refine h.called hop fun user d' hd' => ?_
    obtain ⟨d, -, rfl⟩ := rejectDraft_ok hd'
    exact .of_decided (Or.inr rfl)
  | withdraw id =>
    exact h.changedRow hop fun d _ _ => .of_decided (Or.inr rfl)
  | prepare id preparing =>
    exact h.changedRow hop fun d _ hd => ⟨hd.unassigned, hd.fit⟩
  | route id dept =>
    refine h.changedRow hop fun d hcond hd => ⟨hd.unassigned, fun hp id a hid ha => ?_⟩
    obtain ⟨hreview, hown⟩ := hd.fit hp id a hid ha
    rw [Bool.and_eq_true, beq_iff_eq, beq_iff_eq] at hcond
    exact ⟨canReviewDraft_route hcond.2 dept hreview, hown⟩
  | setAccount a =>
    cases hop
    exact h.setAccount hc
  | deactivate a =>
    simp only [next] at hop
    split at hop
    · cases hop
    · cases hop
      exact h.deactivate a
  | setRules rules =>
    cases hop
    exact h

theorem called_event {actor : Id} {f : User → Except Refusal WorkflowDraft}
    (h : called s actor f (fun _ => .quiet) = some (e, t)) : e = .quiet := by
  unfold called at h
  split at h
  · cases h
  · split at h
    · cases h
    · cases h; rfl

theorem changedRow_event {id : Id} {cond : WorkflowDraft → Bool}
    {f : WorkflowDraft → WorkflowDraft} (h : changedRow s id cond f = some (e, t)) :
    e = .quiet := by
  unfold changedRow at h
  split at h
  · cases h
  · split at h
    · cases h; rfl
    · cases h

theorem approved_inv {user : Account} {d' : WorkflowDraft} (hstep : Step s (.approved user d') t) :
    s.account user.id = some user ∧ ∃ d ∈ s.drafts, d.status = .pending ∧
      canApproveDraft user.toUser d.toPendingDraft = true ∧ d' = { d with status := .approved } := by
  obtain ⟨op, hop⟩ := hstep
  cases op with
  | approve actor id publication =>
    simp only [next] at hop
    split at hop
    · cases hop
    rename_i user hactor
    split at hop
    · cases hop
    rename_i d' hd'
    cases hop
    have haccount := (Option.filter_eq_some_iff.mp hactor).1
    have hid : user.id = actor := by simpa using List.find?_some haccount
    exact ⟨hid ▸ haccount, approveDraft_ok hd'⟩
  | create d =>
    simp only [next] at hop
    split at hop
    · split at hop <;> cases hop
    · cases hop
  | submit actor id =>
    simp only [next] at hop
    cases called_event hop
  | assign actor id approverId useRule =>
    simp only [next] at hop
    cases called_event hop
  | reject actor id =>
    simp only [next] at hop
    cases called_event hop
  | withdraw id => cases changedRow_event hop
  | prepare id preparing => cases changedRow_event hop
  | route id dept => cases changedRow_event hop
  | setAccount a => cases hop
  | deactivate a =>
    simp only [next] at hop
    split at hop <;> cases hop
  | setRules rules => cases hop

theorem step_separated (h : Standing s) (hc : KeepsAssignments s e) (hstep : Step s e t) :
    Separated s e := by
  cases e with
  | changed a => trivial
  | quiet => trivial
  | approved user d' =>
    obtain ⟨haccount, d, hd, hstatus, happrove, rfl⟩ := approved_inv hstep
    by_cases hassigned : d.assignedApproverId = some user.id
    · exact (h d hd).fit hstatus user.id user hassigned haccount
    · have hprivileged : maySelfApprove user.toUser = true := by
        rw [canApproveDraft, Bool.or_eq_true, beq_iff_eq] at happrove
        exact happrove.resolve_left hassigned
      refine ⟨(hc hprivileged).resolve_left hassigned, ?_⟩
      rw [ownUnprivileged, hprivileged, Bool.not_true, Bool.and_false]

end OneStep

/-- **Separation of duties**, in every run that keeps the assignments. -/
theorem approvals_separated {tr : List (Workflow × Event)} {s : Workflow}
    (r : Run Initial Step tr s) (hc : Throughout KeepsAssignments tr) : Throughout Separated tr := by
  refine r.always (fun s hs d hd => ?_) (fun _ _ _ h hk hs => step_standing h hk hs)
    (fun _ _ _ h hk hs => step_separated h hk hs) hc
  rw [hs] at hd
  cases hd

/-! ### A demoted approver -/

def author : Account where
  id := 1
  companyDomain := "qnsc.vn"
  dept := none
  role := "Staff"
  departments := []
  departmentOwnerships := []
  roles := [roleOf "Staff" [⟨.articleCreate, .own⟩]]
  active := true

def reviewer : Account where
  id := 2
  companyDomain := "qnsc.vn"
  dept := none
  role := "Reviewer"
  departments := [finance]
  departmentOwnerships := []
  roles := [roleOf "Reviewer" [⟨.articleReview, .company⟩, ⟨.userRead, .company⟩]]
  active := true

def demoted : Account :=
  { reviewer with role := "Staff", roles := [roleOf "Staff" [⟨.articleRead, .company⟩]] }

def submission : WorkflowDraft where
  id := 7
  createdAt := 0
  title := "Policy"
  sourceRef := "policy.docx"
  companyDomain := "qnsc.vn"
  dept := some "Finance"
  status := .draft
  createdBy := some 1
  assignedApproverId := none
  preparing := false
  splitCandidate := false

def twoAccounts : Workflow := ⟨[author, reviewer], [], [], List.nodup_nil⟩

theorem initial_twoAccounts : Initial twoAccounts := rfl

def reviewed : List Op :=
  [.create submission, .submit 1 7, .assign 2 7 (some 2) false, .approve 2 7 none]

theorem approvals_separated_reviewed :
    Throughout Separated ((play next [] twoAccounts reviewed).get (by decide)).1 :=
  approvals_separated (run_play initial_twoAccounts (by decide)) (by decide)

/-- The same, with the reviewer demoted before the approval. -/
def demotedBetween : List Op :=
  [.create submission, .submit 1 7, .assign 2 7 (some 2) false, .setAccount demoted,
    .approve 2 7 none]

/-- The reviewer loses the permission between the assignment and the approval. -/
theorem demoted_approver_approves :
    ¬ ∀ (tr : List (Workflow × Event)) (s : Workflow), Run Initial Step tr s →
      Throughout Separated tr := by
  intro h
  have hplays : (play next [] twoAccounts demotedBetween).isSome = true := by decide
  have hrun := h _ _ (run_play initial_twoAccounts hplays)
  have happroved : ∃ p ∈ ((play next [] twoAccounts demotedBetween).get hplays).1,
      ∃ user d, p.2 = .approved user d ∧ ¬ Fit user.toUser d.toPendingDraft :=
    ⟨_, List.mem_cons_self, _, _, rfl, by decide⟩
  obtain ⟨p, hp, user, d, he, hunfit⟩ := happroved
  have hfit := hrun p hp
  rw [he] at hfit
  exact hunfit hfit

end QnscKb.Review
