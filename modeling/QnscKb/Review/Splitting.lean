import QnscKb.Access.Agreement
import QnscKb.Review.Batch

/-!
# Review — Splitting

Committing a batch should lose nothing: when the call returns, every active part has become one
draft that carries its text, or is still active under a parent that can be committed; when it
raises, the drafts and parts are as before (`Kept`).

After its one commit the parent is closed, also over parts whose departments are all inactive by
then, and the new drafts are still to be submitted, by a user who may review the parent and not
every department.
-/

namespace QnscKb.Batch
open QnscKb.Access QnscKb.Where QnscKb.Review

/-- `d` is a draft of its own for the part, with the part's text. -/
def ChildOf (s : Desk) (parent : SplitDraft) (c : Candidate) (d : SplitDraft) : Prop :=
  d.id ∉ s.drafts.map (·.id) ∧ d.sourceRef = candidateRef parent c

/-- The part became exactly one draft, which carries its text. -/
def Became (s t : Desk) (parent : SplitDraft) (c : Candidate) : Prop :=
  { c with status := .committed } ∈ t.candidates ∧
    ∃ d ∈ t.drafts, ChildOf s parent c d ∧ d.restructuredBodyMd = some c.bodyMd ∧
      ∀ d' ∈ t.drafts, ChildOf s parent c d' → d' = d

/-- The part is active under a parent that can still be committed. -/
def Remains (t : Desk) (c : Candidate) : Prop :=
  c ∈ t.candidates ∧ ∃ p ∈ t.drafts, p.id = c.draftId ∧ p.status = .pending

/-- A call on the draft of a key keeps every part of it. -/
def Kept (s : Desk) (id : Id) : Except Failure Committed × Desk → Prop
  | (.ok _, t) => ∀ parent ∈ s.drafts, parent.id = id → ∀ c ∈ s.candidates, c.draftId = id →
      c.status = .candidate → Became s t parent c ∨ Remains t c
  | (.error _, t) => t.drafts = s.drafts ∧ t.candidates = s.candidates

/-- The user opens the new draft, and is its author, a global publisher or a reviewer of it. -/
def maySubmit (user : User) (d : SplitDraft) : Bool :=
  admits (openFilters user) d.toPendingDraft &&
    (d.createdBy == some user.id || isGlobalPublisher user ||
      canReviewDraft user d.toPendingDraft)

def stopped (env : Environment) (s : Desk) (parent : SplitDraft) : Bool :=
  (going s parent).isEmpty || !decide (Fresh env s parent) || env.fails .commit

/-- Every part goes through, every new draft can be submitted, and the database holds. -/
def lossless (env : Environment) (s : Desk) (user : User) (id : Id) : Bool :=
  match checkParent s user id with
  | .error _ => true
  | .ok parent => stopped env s parent ||
      ((s.active id).all (routed s.departments parent.companyDomain) &&
        (children env s parent).all (fun d => maySubmit user d && !env.fails (.submit d.id)) &&
        !env.fails .audit)

/-! ### The parts of a draft -/

variable {s : Desk} {c : Candidate}

theorem mem_active {id : Id} :
    c ∈ s.active id ↔ c ∈ s.candidates ∧ c.draftId = id ∧ c.status = .candidate := by
  simp [Desk.active, List.mem_insertionSort, List.mem_filter]

variable {parent d : SplitDraft}

theorem mem_going :
    c ∈ going s parent ↔
      c ∈ s.active parent.id ∧ routed s.departments parent.companyDomain c = true :=
  List.mem_filter

theorem repr_inj {m n : Nat} (h : toString m = toString n) : m = n := by
  have hdigits := congrArg (fun text => Nat.ofDigitChars 10 text.toList 0) h
  simpa using hdigits

theorem candidateRef_inj {c' : Candidate} (h : candidateRef parent c = candidateRef parent c') :
    c.position = c'.position := by
  have hlist := congrArg String.toList h
  simp only [candidateRef, String.toList_append] at hlist
  exact repr_inj (String.toList_inj.mp (List.append_cancel_left hlist))

/-- A draft has one part at each position. -/
theorem part_eq {c' : Candidate} (hc : c ∈ s.candidates) (hc' : c' ∈ s.candidates)
    (hdraft : c.draftId = c'.draftId) (hposition : c.position = c'.position) : c = c' :=
  List.inj_on_of_nodup_map s.positions hc hc' (by rw [hdraft, hposition])

theorem draft_eq {d' : SplitDraft} (hd : d ∈ s.drafts) (hd' : d' ∈ s.drafts) (h : d.id = d'.id) :
    d = d' :=
  List.inj_on_of_nodup_map s.ids hd hd' h

theorem checkParent_ok {user : User} {id : Id} (h : checkParent s user id = .ok parent) :
    parent ∈ s.drafts ∧ parent.id = id ∧ parent.status = .pending := by
  unfold checkParent at h
  split at h
  · cases h
  · rename_i row hload
    split_ifs at h with hstatus hpreparing hreview hactive
    cases h
    have hfound := List.find?_some hload
    simp only [Bool.and_eq_true, beq_iff_eq] at hfound
    refine ⟨List.mem_of_find?_eq_some hload, hfound.1, ?_⟩
    simpa using hstatus

/-! ### Submitting -/

/-- What a submission leaves of a row. -/
def key (d : SplitDraft) : Id × String × Option String :=
  (d.id, d.sourceRef, d.restructuredBodyMd)

theorem load_workflow (s : Desk) (id : Id) (user : User) :
    s.workflow.load id user = (s.load id user).map (·.toWorkflowDraft) := by
  simp only [Workflow.load, Desk.workflow, List.find?_map]
  rfl

theorem load_of_mem (hd : d ∈ s.drafts) (user : User) :
    s.load d.id user = if admits (openFilters user) d.toPendingDraft then some d else none :=
  find?_key_and s.ids hd fun row => admits (openFilters user) row.toPendingDraft

theorem enqueue_ok (s : Workflow) (user : User) {d : WorkflowDraft} (h : d.status = .draft) :
    ∃ d', (do
        let d ← transitionDraft d .pending
        match ruleApprover s user d.toPendingDraft with
        | some approver => Except.ok { d with assignedApproverId := some approver }
        | none => Except.ok d : Except Refusal WorkflowDraft) = .ok d' ∧
      d'.id = d.id ∧ d'.sourceRef = d.sourceRef := by
  have htransition : transitionDraft d .pending = .ok { d with status := .pending } := by
    rw [transitionDraft, h]
    rfl
  rw [htransition]
  cases hrule : ruleApprover s user { d with status := .pending }.toPendingDraft with
  | none =>
    exact ⟨{ d with status := .pending }, by simp only [bind, Except.bind, hrule], rfl, rfl⟩
  | some approver =>
    exact ⟨{ d with status := .pending, assignedApproverId := some approver },
      by simp only [bind, Except.bind, hrule], rfl, rfl⟩

theorem submitDraft_child (user : User) (hd : d ∈ s.drafts) (hdraft : d.status = .draft)
    (hsplit : d.splitCandidate = true) :
    if maySubmit user d then
      ∃ d', submitDraft s.workflow user d.id = .ok d' ∧ d'.id = d.id ∧ d'.sourceRef = d.sourceRef
    else ∃ refusal, submitDraft s.workflow user d.id = .error refusal := by
  unfold maySubmit submitDraft
  rw [load_workflow, load_of_mem hd]
  cases hopen : admits (openFilters user) d.toPendingDraft with
  | false => exact ⟨_, rfl⟩
  | true =>
    have hguard : (d.createdBy != some user.id && !isGlobalPublisher user &&
        !(d.splitCandidate && canReviewDraft user d.toPendingDraft)) =
        !(d.createdBy == some user.id || isGlobalPublisher user ||
          canReviewDraft user d.toPendingDraft) := by
      rw [hsplit, bne, Bool.true_and, Bool.not_or, Bool.not_or]
    simp only [if_true, Option.map_some, hguard]
    cases d.createdBy == some user.id || isGlobalPublisher user ||
        canReviewDraft user d.toPendingDraft with
    | false => exact ⟨_, rfl⟩
    | true =>
      have hstatus : (d.status != .draft) = false := by rw [hdraft]; rfl
      simp only [hstatus]
      exact enqueue_ok s.workflow user hdraft

/-- What the submissions leave: the parts, and of each row what it is; rows of other keys stand. -/
structure Submitted (ids : List Id) (s t : Desk) : Prop where
  candidates : t.candidates = s.candidates
  keys : t.drafts.map key = s.drafts.map key
  frame : ∀ d ∈ t.drafts, d.id ∉ ids → d ∈ s.drafts

theorem Submitted.refl (ids : List Id) (s : Desk) : Submitted ids s s :=
  ⟨rfl, rfl, fun _ hd _ => hd⟩

theorem keys_put {d' : WorkflowDraft} (hd : d ∈ s.drafts) (hid : d'.id = d.id)
    (href : d'.sourceRef = d.sourceRef) (transition : DraftTransition) :
    (s.put d' transition).drafts.map key = s.drafts.map key := by
  simp only [Desk.put, List.map_map]
  refine List.map_congr_left fun row hrow => ?_
  by_cases h : row.id = d'.id
  · obtain rfl := draft_eq hrow hd (h.trans hid)
    simp [key, hid, href]
  · simp [key, h]

theorem mem_put_of_ne {d : WorkflowDraft} {transition : DraftTransition} {row : SplitDraft}
    (hrow : row ∈ s.drafts) (h : row.id ≠ d.id) : row ∈ (s.put d transition).drafts :=
  List.mem_map.mpr ⟨row, hrow, if_neg h⟩

theorem of_mem_put {d : WorkflowDraft} {transition : DraftTransition} {row : SplitDraft}
    (hrow : row ∈ (s.put d transition).drafts) (h : row.id ≠ d.id) : row ∈ s.drafts := by
  obtain ⟨old, hold, rfl⟩ := List.mem_map.mp hrow
  by_cases hid : old.id = d.id
  · rw [if_pos hid] at h
    exact absurd rfl h
  · rw [if_neg hid]
    exact hold

variable {env : Environment} {user : User}

/-- The children are submitted one by one, and no other row moves. -/
theorem submitAll_spec {ds : List SplitDraft} (hmem : ∀ d ∈ ds, d ∈ s.drafts)
    (hdraft : ∀ d ∈ ds, d.status = .draft ∧ d.splitCandidate = true)
    (hnodup : (ds.map (·.id)).Nodup) :
    Submitted (ds.map (·.id)) s (submitAll env user (ds.map (·.id)) s).2 ∧
      ((submitAll env user (ds.map (·.id)) s).1 = .ok () ↔
        ds.all (fun d => maySubmit user d && !env.fails (.submit d.id)) = true) := by
  induction ds generalizing s with
  | nil => exact ⟨.refl _ s, by simp [submitAll]⟩
  | cons d ds ih =>
    obtain ⟨hd, hrest⟩ := List.forall_mem_cons.mp hmem
    obtain ⟨⟨hstatus, hsplit⟩, hwaiting⟩ := List.forall_mem_cons.mp hdraft
    obtain ⟨hnot, hnodup⟩ := List.nodup_cons.mp hnodup
    have hstep := submitDraft_child user hd hstatus hsplit
    simp only [List.map_cons, submitAll, List.all_cons]
    cases hfails : env.fails (.submit d.id) with
    | true => exact ⟨.refl _ s, by simp⟩
    | false =>
      cases hmay : maySubmit user d with
      | false =>
        rw [hmay] at hstep
        obtain ⟨refusal, hrefused⟩ := hstep
        simp only [hrefused]
        exact ⟨.refl _ s, by simp⟩
      | true =>
        rw [hmay] at hstep
        obtain ⟨d', hok, hid, href⟩ := hstep
        have hother : ∀ e ∈ ds, e.id ≠ d'.id := fun e he heq =>
          hnot (List.mem_map.mpr ⟨e, he, heq.trans hid⟩)
        simp only [hok]
        obtain ⟨hsub, hiff⟩ := ih (s := s.put d' _)
          (fun e he => mem_put_of_ne (hrest e he) (hother e he)) hwaiting hnodup
        refine ⟨⟨hsub.candidates, hsub.keys.trans (keys_put hd hid href _), ?_⟩, hiff⟩
        intro row hrow hrowid
        rw [List.mem_cons, not_or] at hrowid
        exact of_mem_put (hsub.frame row hrow hrowid.2) fun h => hrowid.1 (h.trans hid)

/-! ### After the commit -/

variable {s t : Desk} {id : Id} {parent : SplitDraft} {closed : WorkflowDraft}
  {h : ((children env s parent).map (·.id) ++ s.drafts.map (·.id)).Nodup}

theorem transitionDraft_rejected {d : WorkflowDraft} (hd : d.status = .pending) :
    transitionDraft d .rejected = .ok { d with status := .rejected } := by
  rw [transitionDraft, hd]
  rfl

theorem child_status (hd : d ∈ children env s parent) :
    d.status = .draft ∧ d.splitCandidate = true := by
  obtain ⟨c, -, rfl⟩ := List.mem_map.mp hd
  exact ⟨rfl, rfl⟩

theorem submitAll_split (env : Environment) (user : User) (closed : WorkflowDraft)
    (h : ((children env s parent).map (·.id) ++ s.drafts.map (·.id)).Nodup) :
    Submitted ((children env s parent).map (·.id)) (split env s user parent closed h)
        (submitAll env user ((children env s parent).map (·.id))
          (split env s user parent closed h)).2 ∧
      ((submitAll env user ((children env s parent).map (·.id))
          (split env s user parent closed h)).1 = .ok () ↔
        (children env s parent).all (fun d => maySubmit user d && !env.fails (.submit d.id)) =
          true) :=
  submitAll_spec (fun _ hd => List.mem_append_left _ hd) (fun _ hd => child_status hd)
    (List.nodup_append.mp h).1

theorem Submitted.grown (hgoing : (going s parent).isEmpty = false)
    (hsub : Submitted ((children env s parent).map (·.id)) (split env s user parent closed h) t) :
    t.drafts ≠ s.drafts := by
  intro heq
  have hlength := congrArg List.length hsub.keys
  simp only [List.length_map, split, List.length_append, heq, children] at hlength
  have hpos : 0 < (going s parent).length :=
    List.length_pos_iff.mpr (by simpa using hgoing)
  omega

theorem mem_split_id (hparent : parent ∈ s.drafts) (hid : closed.id = parent.id)
    (hd : d ∈ (split env s user parent closed h).drafts) :
    d ∈ children env s parent ∨ d.id ∈ s.drafts.map (·.id) := by
  rcases List.mem_append.mp hd with hd | hd
  · exact .inl hd
  · right
    obtain ⟨row, hrow, rfl⟩ := List.mem_map.mp hd
    by_cases hrid : row.id = closed.id
    · rw [if_pos hrid]
      exact List.mem_map.mpr ⟨parent, hparent, hid.symm⟩
    · rw [if_neg hrid]
      exact List.mem_map_of_mem hrow

/-- Each part that goes becomes a child. -/
theorem became_of_going (hparent : parent ∈ s.drafts) (hid : closed.id = parent.id)
    (hsub : Submitted ((children env s parent).map (·.id)) (split env s user parent closed h) t)
    (hc : c ∈ going s parent) : Became s t parent c := by
  have hactive := mem_active.mp (mem_going.mp hc).1
  have hchild : child env s.departments parent c ∈ children env s parent := List.mem_map_of_mem hc
  -- the rows of the outcome that are new are the children's
  have hnew : ∀ d ∈ t.drafts, d.id ∉ s.drafts.map (·.id) →
      ∃ c' ∈ going s parent, key d = key (child env s.departments parent c') := by
    intro d hd hdnew
    have hkey : key d ∈ (split env s user parent closed h).drafts.map key := by
      rw [← hsub.keys]
      exact List.mem_map_of_mem hd
    obtain ⟨row, hrow, hrowkey⟩ := List.mem_map.mp hkey
    rcases mem_split_id hparent hid hrow with hrow | hrow
    · obtain ⟨c', hc', rfl⟩ := List.mem_map.mp hrow
      exact ⟨c', hc', hrowkey.symm⟩
    · rw [show row.id = d.id from congrArg Prod.fst hrowkey] at hrow
      exact absurd hrow hdnew
  have hfresh : env.newId c ∉ s.drafts.map (·.id) := fun hmem =>
    (List.nodup_append.mp h).2.2 _ (List.mem_map_of_mem hchild) _ hmem rfl
  have hmine : key (child env s.departments parent c) ∈ t.drafts.map key := by
    rw [hsub.keys]
    exact List.mem_map_of_mem (List.mem_append_left _ hchild)
  obtain ⟨d, hd, hdkey⟩ := List.mem_map.mp hmine
  simp only [key, Prod.mk.injEq] at hdkey
  obtain ⟨hdid, hdref, hdbody⟩ := hdkey
  refine ⟨?_, d, hd, ⟨?_, hdref⟩, hdbody, ?_⟩
  · rw [hsub.candidates]
    refine List.mem_map.mpr ⟨c, hactive.1, ?_⟩
    rw [Candidate.commit, if_pos (List.mem_map_of_mem hc)]
  · rw [hdid]
    exact hfresh
  · rintro d' hd' ⟨hnew', href'⟩
    obtain ⟨c', hc', hkey'⟩ := hnew d' hd' hnew'
    simp only [key, Prod.mk.injEq] at hkey'
    have hactive' := mem_active.mp (mem_going.mp hc').1
    have hposition := candidateRef_inj (href'.symm.trans hkey'.2.1)
    obtain rfl := part_eq hactive.1 hactive'.1 (hactive.2.1.trans hactive'.2.1.symm) hposition
    exact draft_eq hd' hd (hkey'.1.trans hdid.symm)

theorem lost_of_unrouted (hparent : parent ∈ s.drafts)
    (hsub : Submitted ((children env s parent).map (·.id)) (split env s user parent { parent.toWorkflowDraft with status := .rejected } h) t)
    (hc : c ∈ s.active parent.id) (hrouted : routed s.departments parent.companyDomain c = false) :
    ¬ (Became s t parent c ∨ Remains t c) := by
  obtain ⟨hmem, hdraft, hstatus⟩ := mem_active.mp hc
  have hcs : c ∈ t.candidates := by
    rw [hsub.candidates]
    refine List.mem_map.mpr ⟨c, hmem, ?_⟩
    rw [Candidate.commit, if_neg]
    intro hin
    obtain ⟨c', hc', hid⟩ := List.mem_map.mp hin
    obtain ⟨hactive', hrouted'⟩ := mem_going.mp hc'
    obtain rfl := List.inj_on_of_nodup_map s.candidateIds (mem_active.mp hactive').1 hmem hid
    rw [hrouted] at hrouted'
    cases hrouted'
  rintro (⟨hcommitted, -⟩ | ⟨-, p, hp, hpid, hpstatus⟩)
  · have heq := List.inj_on_of_nodup_map t.candidateIds hcs hcommitted rfl
    rw [heq] at hstatus
    cases hstatus
  · have hnot : p.id ∉ (children env s parent).map (·.id) := fun hin =>
    (List.nodup_append.mp h).2.2 _ hin _ (List.mem_map_of_mem hparent) (hpid.trans hdraft)
    have hrow := hsub.frame p hp hnot
    rcases List.mem_append.mp hrow with hrow | hrow
    · exact hnot (List.mem_map_of_mem hrow)
    · obtain ⟨row, hrowmem, rfl⟩ := List.mem_map.mp hrow
      by_cases hid : row.id = parent.id
      · rw [if_pos hid] at hpstatus
        cases hpstatus
      · rw [if_neg hid] at hpid
        exact hid (hpid.trans hdraft)

/-! ### The call -/

theorem children_isEmpty : (children env s parent).isEmpty = (going s parent).isEmpty := by
  rw [children, List.isEmpty_map]

/-- A split that is stopped leaves the desk as it was. -/
theorem commitCandidates_stopped (hparent : checkParent s user id = .ok parent)
    (hstopped : stopped env s parent = true) :
    ∃ failure, commitCandidates env s user id = (.error failure, s) := by
  have hclosed := transitionDraft_rejected (checkParent_ok hparent).2.2
  simp only [commitCandidates, hparent, hclosed, children_isEmpty]
  cases hgoing : (going s parent).isEmpty with
  | true => exact ⟨_, rfl⟩
  | false =>
    by_cases hfresh : Fresh env s parent
    · have hfails : env.fails .commit = true := by
        simpa [stopped, hgoing, hfresh] using hstopped
      exact ⟨.raised, by simp [hfresh, hfails]⟩
    · exact ⟨.raised, by simp [hfresh]⟩

theorem commitCandidates_split (hparent : checkParent s user id = .ok parent)
    (hstopped : stopped env s parent = false) :
    ∃ h : ((children env s parent).map (·.id) ++ s.drafts.map (·.id)).Nodup,
      commitCandidates env s user id =
        finish env s parent (submitAll env user ((children env s parent).map (·.id))
          (split env s user parent { parent.toWorkflowDraft with status := .rejected } h)) := by
  have hclosed := transitionDraft_rejected (checkParent_ok hparent).2.2
  simp only [stopped, Bool.or_eq_false_iff, Bool.not_eq_false', decide_eq_true_eq] at hstopped
  obtain ⟨⟨hgoing, hfresh⟩, hfails⟩ := hstopped
  refine ⟨hfresh, ?_⟩
  simp only [commitCandidates, hparent, hclosed, children_isEmpty, hgoing, hfails,
    Bool.false_eq_true, if_false]
  rw [dif_pos hfresh]

theorem not_kept_of_raised (hgoing : (going s parent).isEmpty = false)
    (hsub : Submitted ((children env s parent).map (·.id)) (split env s user parent closed h) t)
    (failure : Failure) : ¬ Kept s id (.error failure, t) :=
  fun hkept => hsub.grown hgoing hkept.1

theorem kept_ok_iff (hparent : checkParent s user id = .ok parent)
    {h : ((children env s parent).map (·.id) ++ s.drafts.map (·.id)).Nodup}
    (hsub : Submitted ((children env s parent).map (·.id))
      (split env s user parent { parent.toWorkflowDraft with status := .rejected } h) t)
    (committed : Committed) :
    Kept s id (.ok committed, t) ↔
      (s.active id).all (routed s.departments parent.companyDomain) = true := by
  obtain ⟨hmem, rfl, -⟩ := checkParent_ok hparent
  rw [List.all_eq_true]
  constructor
  · intro hkept c hc
    by_contra hrouted
    obtain ⟨hcs, hdraft, hstatus⟩ := mem_active.mp hc
    exact lost_of_unrouted hmem hsub hc (by simpa using hrouted)
      (hkept parent hmem rfl c hcs hdraft hstatus)
  · intro hrouted p hp hpid c hcs hdraft hstatus
    obtain rfl := draft_eq hp hmem hpid
    have hc : c ∈ s.active p.id := mem_active.mpr ⟨hcs, hdraft, hstatus⟩
    have hid : { p.toWorkflowDraft with status := .rejected : WorkflowDraft }.id = p.id := rfl
    exact .inl (became_of_going hmem hid hsub (mem_going.mpr ⟨hc, hrouted c hc⟩))

/-- **Splitting loses nothing** exactly when the call is stopped before its commit, or all parts go
through, the user can submit every new draft, and the database holds. -/
theorem kept_iff_lossless (env : Environment) (s : Desk) (user : User) (id : Id) :
    Kept s id (commitCandidates env s user id) ↔ lossless env s user id = true := by
  unfold lossless
  cases hparent : checkParent s user id with
  | error refusal =>
    simp only [commitCandidates, hparent]
    exact ⟨fun _ => trivial, fun _ => ⟨rfl, rfl⟩⟩
  | ok parent =>
    cases hstopped : stopped env s parent with
    | true =>
      obtain ⟨failure, hcall⟩ := commitCandidates_stopped hparent hstopped
      rw [hcall]
      exact ⟨fun _ => by simp [hstopped], fun _ => ⟨rfl, rfl⟩⟩
    | false =>
      have hgoing : (going s parent).isEmpty = false := by
        simp only [stopped, Bool.or_eq_false_iff] at hstopped
        exact hstopped.1.1
      obtain ⟨h, hcall⟩ := commitCandidates_split hparent hstopped
      obtain ⟨hsub, hiff⟩ := submitAll_split env user
        { parent.toWorkflowDraft with status := .rejected } h
      simp only [hcall, hstopped, Bool.false_or]
      generalize submitAll env user _ _ = out at hsub hiff ⊢
      obtain ⟨outcome, t⟩ := out
      cases outcome with
      | error failure =>
        have hall : (children env s parent).all
            (fun d => maySubmit user d && !env.fails (.submit d.id)) = false :=
          Bool.eq_false_iff.mpr fun hall => by cases hiff.mpr hall
        simp only [hall, Bool.and_false, Bool.false_and, Bool.false_eq_true, iff_false]
        exact not_kept_of_raised hgoing hsub failure
      | ok result =>
        have hall := hiff.mp rfl
        cases haudit : env.fails .audit with
        | true =>
          simp only [finish, haudit, if_true, Bool.not_true, Bool.and_false,
            Bool.false_eq_true, iff_false]
          exact not_kept_of_raised hgoing hsub .raised
        | false =>
          simp only [finish, haudit, hall, Bool.false_eq_true, if_false, Bool.and_true,
            Bool.not_false]
          exact kept_ok_iff hparent hsub _

/-! ### A stranded part -/

def lead : User where
  id := 1
  companyDomain := "qnsc.vn"
  dept := none
  role := "Admin"
  departments := []
  departmentOwnerships := []
  roles := []

def handbook : SplitDraft where
  id := 7
  createdAt := 0
  title := "Handbook"
  sourceRef := "handbook.docx"
  companyDomain := "qnsc.vn"
  dept := some "Finance"
  status := .pending
  createdBy := some 1
  assignedApproverId := none
  preparing := false
  splitCandidate := false
  sourceHash := "a1"
  summary := some "Invoices. Leave."
  restructuredBodyMd := some "Invoices. Leave."
  restructureModel := none
  storageKey := none
  originalFilename := none
  mimeType := none
  pageTexts := []
  tags := []
  departmentIds := []
  sourcePosition := none

def partOf (position : Nat) (title body : String) (department : Id) : Candidate :=
  ⟨10 + position, 7, position, title, body, 0, 0, none, [], [department], .candidate⟩

/-- The handbook in two parts; the department of the second is closed. -/
def twoParts : Desk where
  accounts := []
  rules := []
  departments := [finance]
  drafts := [handbook]
  candidates := [partOf 1 "Invoices" "Invoices." finance.id,
    partOf 2 "Leave" "Leave." (finance.id + 1)]
  transitions := []
  ids := by decide
  candidateIds := by decide
  positions := by decide

def steady : Environment := ⟨fun text => text, fun c => 100 + c.position, 1, fun _ => false⟩

/-- One part whose department was closed stays behind under a rejected parent. -/
theorem part_stranded :
    ¬ ∀ (env : Environment) (s : Desk) (user : User) (id : Id),
      Kept s id (commitCandidates env s user id) := by
  intro h
  have hkept := h steady twoParts lead 7
  rcases hkept handbook (by decide) rfl (partOf 2 "Leave" "Leave." (finance.id + 1)) (by decide) rfl
    rfl with hbecame | hremains
  · exact absurd hbecame.1 (by decide)
  · exact absurd hremains.2 (by decide)

end QnscKb.Batch
