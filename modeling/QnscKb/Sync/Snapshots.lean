import QnscKb.Sync.Narrowing

/-!
# Sync — Snapshots

One list of a provider after another.  A list is laid over the snapshot that the session's object
holds or its row has (`AclReport.inUse`); where neither has one it is taken anew, and then of what
the earlier lists have left.
-/

namespace QnscKb.Sync
open QnscKb.Access QnscKb.Where QnscKb.Review

/-! ### A list over what it has left -/

section Again

/-- Some principal, or the provider's word that there is a list. -/
def SourceAcl.restricts (acl : SourceAcl) : Bool :=
  (acl.providerAclPresent || acl.sharepointAclPresent) ||
    (!acl.mappedDepartmentIds.isEmpty || !acl.mappedSourceUserIds.isEmpty || acl.unmapped)

/-- The list laid over what it has left: a user of an article open to all left no trace, or the
departments let in are none of the company's and others would be. -/
inductive Unsteady (dir : Directory) (acl : SourceAcl) (i : AclSnapshot) (a : Article) : Prop where
  | user (id : Id) (mapped : id ∈ acl.mappedSourceUserIds) (mode : i.visibility = .publicContent)
      (notListed : id ∉ i.allowUserIds)
  | department (group : groupAdmitted acl i = true) (none : commonDepartments dir acl i a = [])
      (some : effectiveDepartments dir a.companyDomain acl.mappedDepartmentIds ≠ [])

variable {system : Option String} (x : Imported system) (dir : Directory) {acl : SourceAcl}
  {i : AclSnapshot}

/-- A list without a department that is let in leaves the article to its users. -/
theorem visibility_of_none (hrestricts : acl.restricts = true) (hg : groupAdmitted acl i = false) :
    (rewritten x dir acl i).visibility = .users := by
  have hnone : (intersectionWith dir i acl x.article.companyDomain).groupIds.isEmpty = true := by
    rw [groupIds_isEmpty, hg]
    rfl
  have hvisibility : (rewritten x dir acl i).visibility =
      (intersectionWith dir i acl x.article.companyDomain).visibility := rfl
  rw [SourceAcl.restricts] at hrestricts
  rw [hvisibility]
  unfold intersectionWith providerAclIntersection at hnone ⊢
  dsimp only at hnone ⊢
  rw [hrestricts, hnone]
  cases (if i.visibility == Visibility.publicContent then acl.mappedSourceUserIds
    else both acl.mappedSourceUserIds i.allowUserIds).isEmpty <;> rfl

theorem unrestricted (h : acl.restricts = false) :
    acl.mappedDepartmentIds = [] ∧ acl.mappedSourceUserIds = [] := by
  simp only [SourceAcl.restricts, Bool.or_eq_false_iff, Bool.not_eq_false',
    List.isEmpty_iff] at h
  exact h.2.1

theorem visibility_unrestricted (h : acl.restricts = false) :
    (rewritten x dir acl i).visibility = i.visibility := by
  rw [SourceAcl.restricts] at h
  simp only [rewritten, rewrite, intersectionWith, providerAclIntersection, h, Bool.not_false,
    if_true]

variable (acl i) in
def nextSnapshot : AclSnapshot := snapshotOf (rewritten x dir acl i)

theorem allowed_nextSnapshot :
    (nextSnapshot x dir acl i).allowUserIds = (snapshotOf x.article).allowUserIds := by
  have hstamped : ∀ (e : Effect) (ids : List Id),
      (ids.map (sourceRow (permissionSource system) e)).filter
        (fun item => item.effect == .allow && internalRow item) = [] := by
    intro e ids
    refine List.filter_eq_nil_iff.mpr fun row hrow => ?_
    obtain ⟨id, -, rfl⟩ := List.mem_map.mp hrow
    simp [internalRow, sourceRow, x.remote]
  simp only [nextSnapshot, snapshotOf, rewritten, rewrite, rewrittenRows, kept_rows,
    List.filter_append, hstamped, List.append_nil, List.filter_filter, Bool.and_assoc,
    Bool.and_self]

theorem mode_nextSnapshot (hi : Derived i x.article) (h : x.article.visibility = .users) :
    (nextSnapshot x dir acl i).visibility = .users := by
  cases hrestricts : acl.restricts with
  | false => exact (visibility_unrestricted x dir hrestricts).trans (hi.mode h)
  | true =>
    refine visibility_of_none x dir hrestricts ?_
    rw [groupAdmitted]
    simp [admitsGroup, hi.mode h]

theorem Derived.next (hi : Derived i x.article) : Derived (nextSnapshot x dir acl i) x.article :=
  ⟨allowed_nextSnapshot x dir, mode_nextSnapshot x dir hi⟩

theorem groups_nextSnapshot :
    (nextSnapshot x dir acl i).departmentIds = (commonDepartments dir acl i x.article).map (·.id) :=
  congrArg (List.map Department.id) (effectiveDepartments_eq (a := x.article))

/-- What a list with departments has left lets in the departments that are left, or all. -/
theorem admits_nextSnapshot (hg : groupAdmitted acl i = true) (id : Id) :
    admitsGroup (nextSnapshot x dir acl i) id =
      ((nextSnapshot x dir acl i).departmentIds.isEmpty ||
        (nextSnapshot x dir acl i).departmentIds.contains id) := by
  have hmode : (nextSnapshot x dir acl i).visibility = .department :=
    visibility_rewritten_of_group x dir acl i hg
  rw [admitsGroup, hmode]
  rfl

theorem groupAdmitted_nextSnapshot (hg : groupAdmitted acl i = true) :
    groupAdmitted acl (nextSnapshot x dir acl i) = true := by
  rw [groupAdmitted, List.any_eq_true]
  simp only [admits_nextSnapshot x dir hg, groups_nextSnapshot]
  cases hcommon : commonDepartments dir acl i x.article with
  | nil =>
    obtain ⟨id, hid, -⟩ := List.any_eq_true.mp hg
    exact ⟨id, hid, rfl⟩
  | cons first rest =>
    have hfirst : first ∈ commonDepartments dir acl i x.article := hcommon ▸ List.mem_cons_self
    have hkept := (List.mem_filter.mp hfirst).2
    simp only [Bool.and_eq_true] at hkept
    exact ⟨first.id, List.contains_iff_mem.mp hkept.1.1, by simp⟩

/-- The departments of the second time. -/
theorem common_again (hrestricts : acl.restricts = true) :
    commonDepartments dir acl (nextSnapshot x dir acl i) x.article =
        commonDepartments dir acl i x.article ↔
      ¬ (groupAdmitted acl i = true ∧ commonDepartments dir acl i x.article = [] ∧
        effectiveDepartments dir x.article.companyDomain acl.mappedDepartmentIds ≠ []) := by
  cases hg : groupAdmitted acl i with
  | false =>
    have hnone : groupAdmitted acl (nextSnapshot x dir acl i) = false := by
      rw [groupAdmitted]
      simp [admitsGroup, nextSnapshot, snapshotOf, visibility_of_none x dir hrestricts hg]
    rw [commonDepartments_of_none hnone, commonDepartments_of_none hg]
    simp
  | true =>
    have hgroups : acl.mappedDepartmentIds.isEmpty = false := by
      obtain ⟨id, hid, -⟩ := List.any_eq_true.mp hg
      exact List.isEmpty_eq_false_iff.mpr (List.ne_nil_of_mem hid)
    cases hcommon : commonDepartments dir acl i x.article with
    | nil =>
      have hagain : commonDepartments dir acl (nextSnapshot x dir acl i) x.article =
          effectiveDepartments dir x.article.companyDomain acl.mappedDepartmentIds := by
        rw [effectiveDepartments, hgroups]
        refine List.filter_congr fun d _ => ?_
        rw [admits_nextSnapshot x dir hg, groups_nextSnapshot, hcommon]
        simp
      simp [hagain]
    | cons first rest =>
      refine iff_of_true ?_ (by simp)
      rw [← hcommon]
      have hsome : (nextSnapshot x dir acl i).departmentIds.isEmpty = false := by
        rw [groups_nextSnapshot, hcommon]
        rfl
      refine List.filter_congr fun d hd => ?_
      rw [Bool.eq_iff_iff]
      simp only [Bool.and_eq_true]
      refine and_congr_left fun hcompany => and_congr_right fun hmapped => ?_
      rw [admits_nextSnapshot x dir hg, hsome, Bool.false_or, List.contains_iff_mem,
        groups_nextSnapshot]
      constructor
      · intro hid
        obtain ⟨other, hother, heq⟩ := List.mem_map.mp hid
        have hkept := (List.mem_filter.mp hother).2
        simp only [Bool.and_eq_true] at hkept
        exact heq ▸ hkept.1.2
      · intro hadmitted
        refine List.mem_map.mpr ⟨d, List.mem_filter.mpr ⟨hd, ?_⟩, rfl⟩
        simp only [Bool.and_eq_true]
        exact ⟨⟨hmapped, hadmitted⟩, hcompany⟩

theorem both_dedup_iff (users listed : List Id) :
    (both users listed).dedup = users.dedup ↔ ∀ id ∈ users, id ∈ listed := by
  constructor
  · intro h id hid
    have hmem : id ∈ (both users listed).dedup := h ▸ List.mem_dedup.mpr hid
    exact List.contains_iff_mem.mp (List.mem_filter.mp (List.mem_dedup.mp hmem)).2
  · intro h
    rw [both, List.filter_eq_self.mpr fun id hid => List.contains_iff_mem.mpr (h id hid)]

/-- The rows of the second time. -/
theorem rows_again (hi : Derived i x.article) (j : AclSnapshot) (hj : Derived j x.article) :
    (rewritten x dir acl j).userPermissions = (rewritten x dir acl i).userPermissions ↔
      (intersectionWith dir j acl x.article.companyDomain).directUserIds.dedup =
        (intersectionWith dir i acl x.article.companyDomain).directUserIds.dedup := by
  have hsame : j.allowUserIds = i.allowUserIds := hj.allowed.trans hi.allowed.symm
  have hcounted : (intersectionWith dir j acl
      x.article.companyDomain).internalUsersAllowedBySource =
        (intersectionWith dir i acl x.article.companyDomain).internalUsersAllowedBySource := by
    simp only [intersectionWith, providerAclIntersection, hsame]
  have hinjective : Function.Injective (sourceRow (permissionSource system) .allow) :=
    fun _ _ h => congrArg ArticleUserPermission.userId h
  simp only [rewritten, rewrite, rewrittenRows, hsame, hcounted]
  rw [List.append_cancel_right_eq, List.append_cancel_left_eq, hinjective.list_map.eq_iff]

/-- With a list, the direct users of the second time are those on the article's own list. -/
theorem direct_again (hi : Derived i x.article) (hrestricts : acl.restricts = true) :
    (intersectionWith dir (nextSnapshot x dir acl i) acl
          x.article.companyDomain).directUserIds.dedup =
        (intersectionWith dir i acl x.article.companyDomain).directUserIds.dedup ↔
      ¬ ∃ id ∈ acl.mappedSourceUserIds, i.visibility = .publicContent ∧ id ∉ i.allowUserIds := by
  have hmode : ((nextSnapshot x dir acl i).visibility == .publicContent) = false := by
    cases hg : groupAdmitted acl i with
    | false => simp [nextSnapshot, snapshotOf, visibility_of_none x dir hrestricts hg]
    | true => simp [nextSnapshot, snapshotOf, visibility_rewritten_of_group x dir acl i hg]
  have hsame : (nextSnapshot x dir acl i).allowUserIds = i.allowUserIds :=
    (allowed_nextSnapshot x dir).trans hi.allowed.symm
  simp only [intersectionWith, providerAclIntersection, hmode, hsame, Bool.false_eq_true, if_false]
  cases hpublic : i.visibility == .publicContent with
  | false =>
    have hne : i.visibility ≠ .publicContent := by simpa using hpublic
    simp [hne]
  | true =>
    have heq : i.visibility = .publicContent := by simpa using hpublic
    rw [if_pos rfl, both_dedup_iff]
    simp [heq]

theorem rewritten_eq_iff (i j : AclSnapshot) :
    rewritten x dir acl j = rewritten x dir acl i ↔
      commonDepartments dir acl j x.article = commonDepartments dir acl i x.article ∧
        (rewritten x dir acl j).userPermissions = (rewritten x dir acl i).userPermissions ∧
          (rewritten x dir acl j).visibility = (rewritten x dir acl i).visibility := by
  rw [← effectiveDepartments_eq, ← effectiveDepartments_eq]
  constructor
  · intro h
    exact ⟨congrArg Article.departments h, congrArg Article.userPermissions h,
      congrArg Article.visibility h⟩
  · rintro ⟨hdepartments, hrows, hvisibility⟩
    simp only [rewritten, rewrite] at hrows hvisibility ⊢
    rw [hdepartments, hrows, hvisibility]

/-- The mode of the second time. -/
theorem mode_again :
    (rewritten x dir acl (nextSnapshot x dir acl i)).visibility =
      (rewritten x dir acl i).visibility := by
  cases hrestricts : acl.restricts with
  | false => exact visibility_unrestricted x dir hrestricts
  | true =>
    cases hg : groupAdmitted acl i with
    | false =>
      have hnone : groupAdmitted acl (nextSnapshot x dir acl i) = false := by
        rw [groupAdmitted]
        simp [admitsGroup, nextSnapshot, snapshotOf, visibility_of_none x dir hrestricts hg]
      rw [visibility_of_none x dir hrestricts hnone, visibility_of_none x dir hrestricts hg]
    | true =>
      rw [visibility_rewritten_of_group x dir acl _ (groupAdmitted_nextSnapshot x dir hg),
        visibility_rewritten_of_group x dir acl i hg]

/-- **A list laid over what it has left** changes nothing, but where it is unsteady. -/
theorem rewritten_again_iff (hi : Derived i x.article) :
    rewritten x dir acl (nextSnapshot x dir acl i) = rewritten x dir acl i ↔
      ¬ Unsteady dir acl i x.article := by
  have hunsteady : Unsteady dir acl i x.article ↔
      (∃ id ∈ acl.mappedSourceUserIds, i.visibility = .publicContent ∧ id ∉ i.allowUserIds) ∨
        (groupAdmitted acl i = true ∧ commonDepartments dir acl i x.article = [] ∧
          effectiveDepartments dir x.article.companyDomain acl.mappedDepartmentIds ≠ []) := by
    constructor
    · rintro (⟨id, hmapped, hmode, hlisted⟩ | ⟨hgroup, hnone, hsome⟩)
      · exact Or.inl ⟨id, hmapped, hmode, hlisted⟩
      · exact Or.inr ⟨hgroup, hnone, hsome⟩
    · rintro (⟨id, hmapped, hmode, hlisted⟩ | ⟨hgroup, hnone, hsome⟩)
      · exact .user id hmapped hmode hlisted
      · exact .department hgroup hnone hsome
  rw [rewritten_eq_iff, rows_again x dir hi _ (hi.next x dir), and_iff_left (mode_again x dir),
    hunsteady, not_or, and_comm]
  cases hrestricts : acl.restricts with
  | true => rw [direct_again x dir hi hrestricts, common_again x dir hrestricts]
  | false =>
    obtain ⟨hgroups, husers⟩ := unrestricted hrestricts
    simp [intersectionWith, providerAclIntersection, both, hgroups, husers, commonDepartments,
      groupAdmitted]

end Again

/-! ### One list after another -/

/-- The metadata is assigned as it was. -/
def AclReport.unchanged (r : AclReport) (s : Synced) : Bool :=
  decide ((r.held s).save r.acl = r.held s) && !r.others

/-- The row is left without the snapshot: a walk that clears no failure writes what equals the
object's value, and so nothing. -/
def AclReport.forgets (r : AclReport) (s : Synced) : Bool :=
  match r.pass with
  | .walk true => false
  | .walk false =>
    if r.unchanged s then s.row.internalAclSnapshot.isNone
    else (r.held s).internalAclSnapshot.isNone
  | .reconcile =>
    r.unchanged s && (r.held s).internalAclSnapshot.isSome && s.row.internalAclSnapshot.isNone

def opens (u : User) (s : Synced) : Bool := s.article.any (canViewArticle u)

section Reports

variable {system : Option String} (x : Imported system)

/-- The snapshot a list is laid over. -/
def AclReport.inUse (r : AclReport) (s : Synced) : AclSnapshot :=
  (r.held s).internal (s.article.getD x.article)

/-- The article before its provider's first list. -/
def beforeFirst (acl : SourceAcl) : Synced := ⟨⟨none, acl⟩, ⟨none, acl⟩, some x.article⟩

/-- Exactly who is admitted by both sides sees the article; a list that resolves to nobody admits
nobody; applied again it changes nothing. -/
structure Exact (u : User) (r : AclReport) (after : Synced) : Prop where
  view : opens u after = true ↔ InternalAudience u x.article ∧ Granted r.acl u
  closed : r.acl.mappedDepartmentIds = [] → r.acl.mappedSourceUserIds = [] →
    opens u after = false
  again : ∀ r' : AclReport, r'.dir = r.dir → r'.acl = r.acl →
    (applyReport system r' after).article = after.article

/-- What the lists have left of the article. -/
def Left (a : Article) : Prop :=
  a = x.article ∨ ∃ dir acl i, Derived i x.article ∧ a = rewritten x dir acl i

/-- What holds of a document whatever lists it has seen: the object has the snapshot if its row
has, and it is one of the article's. -/
structure Tracked (s : Synced) : Prop where
  article : ∃ a, s.article = some a ∧ Left x a
  row : ∀ i, s.row.internalAclSnapshot = some i → s.loaded.internalAclSnapshot = some i
  loaded : ∀ i, s.loaded.internalAclSnapshot = some i → Derived i x.article

variable {x} {s : Synced} {r : AclReport} {a : Article}

theorem Left.snapshot (h : Left x a) : Derived (snapshotOf a) x.article := by
  rcases h with rfl | ⟨dir, acl, i, hi, rfl⟩
  · exact ⟨rfl, fun h => h⟩
  · exact hi.next x dir

theorem Left.rewrite_eq (h : Left x a) (dir : Directory) (acl : SourceAcl) (i : AclSnapshot) :
    rewrite dir (permissionSource system) i acl a = rewritten x dir acl i := by
  rcases h with rfl | ⟨dir, acl, i, -, rfl⟩
  · rfl
  · exact rewrite_rewrite _ _ _ _ _ _ _ _

theorem Tracked.of_held (h : Tracked x s) {i : AclSnapshot}
    (hi : (r.held s).internalAclSnapshot = some i) : s.loaded.internalAclSnapshot = some i := by
  rw [AclReport.held] at hi
  split at hi
  · exact h.row i hi
  · exact hi

theorem Tracked.row_none (h : Tracked x s) (hnone : (r.held s).internalAclSnapshot = none) :
    s.row.internalAclSnapshot = none := by
  rw [AclReport.held] at hnone
  split at hnone
  · exact hnone
  · cases hrow : s.row.internalAclSnapshot with
    | none => rfl
    | some i =>
      rw [h.row i hrow] at hnone
      cases hnone

theorem Tracked.inUse (h : Tracked x s) (r : AclReport) : Derived (r.inUse x s) x.article := by
  obtain ⟨a, ha, hleft⟩ := h.article
  rw [AclReport.inUse, Metadata.internal, ha]
  cases hheld : (r.held s).internalAclSnapshot with
  | none => exact hleft.snapshot
  | some i => exact h.loaded i (h.of_held hheld)

/-- **What a list does** to the session's object and to the article. -/
theorem applyReport_eq (h : Tracked x s) (r : AclReport) :
    (applyReport system r s).loaded = ⟨some (r.inUse x s), r.acl⟩ ∧
      (applyReport system r s).article = some (rewritten x r.dir r.acl (r.inUse x s)) := by
  obtain ⟨a, ha, hleft⟩ := h.article
  rw [← hleft.rewrite_eq, AclReport.inUse, applyReport, ha]
  exact ⟨rfl, rfl⟩

theorem flushed_save (r : AclReport) (s : Synced) :
    r.flushed s ((r.held s).save r.acl) =
      if r.unchanged s then s.row else (r.held s).save r.acl := by
  simp [AclReport.flushed, AclReport.unchanged]

theorem Tracked.row_of_held (h : Tracked x s) {i : AclSnapshot}
    (hi : (r.held s).internalAclSnapshot = some i) :
    s.row.internalAclSnapshot = if s.row.internalAclSnapshot.isNone then none else some i := by
  cases hrow : s.row.internalAclSnapshot with
  | none => rfl
  | some j => exact (h.row j hrow).symm.trans (h.of_held hi)

/-- **What it does to the row.** -/
theorem row_applyReport (h : Tracked x s) (r : AclReport) :
    (applyReport system r s).row.internalAclSnapshot =
      if r.forgets s then none else some (r.inUse x s) := by
  obtain ⟨a, ha, -⟩ := h.article
  have hrow : (applyReport system r s).row = match r.pass with
      | .reconcile => r.flushed s ⟨some (r.inUse x s), r.acl⟩
      | .walk true => ⟨some (r.inUse x s), r.acl⟩
      | .walk false => r.flushed s ((r.held s).save r.acl) := by
    rw [applyReport, AclReport.inUse, ha]
    cases r.pass with
    | walk clears => cases clears <;> rfl
    | reconcile => rfl
  rw [hrow, AclReport.forgets]
  cases hheld : (r.held s).internalAclSnapshot with
  | none =>
    -- the snapshot is taken anew, and only a walk that clears a failure is sure to write it
    have hnone := h.row_none hheld
    have hdiffers : (⟨some (r.inUse x s), r.acl⟩ : Metadata) ≠ r.held s := by
      intro heq
      rw [← heq] at hheld
      cases hheld
    cases r.pass with
    | walk clears =>
      cases clears with
      | true => rfl
      | false =>
        rw [flushed_save]
        cases r.unchanged s with
        | true => simp [hnone]
        | false => simpa [Metadata.save] using hheld
    | reconcile => simp [AclReport.flushed, hdiffers]
  | some i =>
    -- the object has it, but a dictionary that equals itself is not written
    have huse : r.inUse x s = i := by
      rw [AclReport.inUse, Metadata.internal, hheld, Option.getD_some]
    have hsaved : (⟨some i, r.acl⟩ : Metadata) = (r.held s).save r.acl := by
      rw [Metadata.save, ← hheld]
    have hkept := h.row_of_held hheld
    rw [huse]
    cases r.pass with
    | walk clears =>
      cases clears with
      | true => rfl
      | false =>
        rw [flushed_save]
        cases r.unchanged s with
        | true => exact hkept
        | false => exact hheld
    | reconcile =>
      rw [hsaved, flushed_save]
      cases r.unchanged s with
      | true => exact hkept
      | false => exact hheld

theorem Tracked.step (h : Tracked x s) (r : AclReport) : Tracked x (applyReport system r s) := by
  obtain ⟨hloaded, harticle⟩ := applyReport_eq h r
  have hi := h.inUse r
  refine ⟨⟨_, harticle, Or.inr ⟨r.dir, r.acl, _, hi, rfl⟩⟩, fun i hrow => ?_, fun i hin => ?_⟩
  · rw [row_applyReport h] at hrow
    split at hrow
    · cases hrow
    · rw [hloaded]
      exact hrow
  · rw [hloaded] at hin
    exact Option.some.inj hin ▸ hi

theorem tracked_reports (acl : SourceAcl) (history : List AclReport) :
    Tracked x (applyReports system (beforeFirst x acl) history) := by
  have hrun : ∀ s, Tracked x s → Tracked x (applyReports system s history) := by
    induction history with
    | nil => exact fun s hs => hs
    | cons r history ih => exact fun s hs => ih _ (hs.step r)
  refine hrun _ ⟨⟨_, rfl, Or.inl rfl⟩, fun i hi => ?_, fun i hi => ?_⟩
  · cases hi
  · cases hi

/-- **A list applied again** changes nothing, but where the row has forgotten the snapshot and the
list is unsteady. -/
theorem again_iff (h : Tracked x s) (r : AclReport) :
    (∀ r' : AclReport, r'.dir = r.dir → r'.acl = r.acl →
        (applyReport system r' (applyReport system r s)).article =
          (applyReport system r s).article) ↔
      ¬ (r.forgets s = true ∧ Unsteady r.dir r.acl (r.inUse x s) x.article) := by
  obtain ⟨hloaded, harticle⟩ := applyReport_eq h r
  have hrow := row_applyReport h r
  have hnext := h.step r
  have hi := h.inUse r
  have huse : ∀ r' : AclReport, r'.inUse x (applyReport system r s) =
      if r'.reloaded && r.forgets s then nextSnapshot x r.dir r.acl (r.inUse x s)
      else r.inUse x s := by
    intro r'
    rw [AclReport.inUse, Metadata.internal, AclReport.held, harticle]
    cases r'.reloaded with
    | false => rw [if_neg Bool.false_ne_true, hloaded]; rfl
    | true =>
      rw [if_pos rfl, hrow]
      cases r.forgets s <;> rfl
  constructor
  · rintro hagain ⟨hforgets, hunsteady⟩
    -- the next list reads the row anew, and takes the snapshot from the narrowed article
    have hsame := hagain { r with reloaded := true } rfl rfl
    rw [(applyReport_eq hnext _).2, harticle, huse, hforgets] at hsame
    exact (rewritten_again_iff x r.dir hi).mp (Option.some.inj hsame) hunsteady
  · intro hsteady r' hdir hacl
    rw [(applyReport_eq hnext r').2, harticle, huse, hdir, hacl]
    split
    · rename_i hread
      rw [Bool.and_eq_true] at hread
      rw [(rewritten_again_iff x r.dir hi).mpr fun hunsteady => hsteady ⟨hread.2, hunsteady⟩]
    · rfl

/-- **The intersection is exact**, whatever lists came before, for the users it neither drops nor
lets in, if its snapshot stays or is not needed again. -/
theorem narrowing_exact_iff (x : Imported system) (acl₀ : SourceAcl) (history : List AclReport)
    (r : AclReport) (u : User) (hu : hasFullCompanyArticleAccess u = false) :
    Exact x u r (applyReport system r (applyReports system (beforeFirst x acl₀) history)) ↔
      ¬ Lost r.dir r.acl (r.inUse x (applyReports system (beforeFirst x acl₀) history)) u
          x.article ∧
        ¬ Gained r.dir r.acl (r.inUse x (applyReports system (beforeFirst x acl₀) history)) u
            x.article ∧
          ¬ (r.forgets (applyReports system (beforeFirst x acl₀) history) = true ∧
            Unsteady r.dir r.acl (r.inUse x (applyReports system (beforeFirst x acl₀) history))
              x.article) := by
  -- of the history, only what every run keeps is used
  have htracked := tracked_reports (x := x) acl₀ history
  generalize applyReports system (beforeFirst x acl₀) history = s at htracked
  have hi := htracked.inUse r
  have hopens : opens u (applyReport system r s) =
      canViewArticle u (rewritten x r.dir r.acl (r.inUse x s)) := by
    rw [opens, (applyReport_eq htracked r).2]
    rfl
  rw [lost_iff x r.dir r.acl u hi hu, gained_iff x r.dir r.acl u hi hu, ← again_iff htracked]
  constructor
  · intro h
    have hview := h.view
    rw [hopens] at hview
    exact ⟨fun hlost => hlost.2 (hview.mpr hlost.1), fun hgained => hgained.2 (hview.mp hgained.1),
      h.again⟩
  · rintro ⟨hlost, hgained, hagain⟩
    refine ⟨?_, fun hgroups husers => ?_, hagain⟩
    · rw [hopens]
      exact ⟨fun hv => not_not.mp fun hn => hgained ⟨hv, hn⟩,
        fun hboth => not_not.mp fun hn => hlost ⟨hboth, hn⟩⟩
    · rw [hopens, ← Bool.not_eq_true, view_rewritten_iff x r.dir r.acl _ u hi hu]
      have hg : groupAdmitted r.acl (r.inUse x s) = false := by simp [groupAdmitted, hgroups]
      rw [if_neg (by simp [hg])]
      intro h
      rcases Reached.granted r.dir r.acl u h with huser | hmember
      · simp [sourceUser, husers] at huser
      · simp [sourceMember, hgroups, meets] at hmember

end Reports

/-! ### A listed user whose group the source admits -/

/-- An imported article for listed users, the engineer among them. -/
def importedArticle : Imported (some "google_drive") where
  article := { financeArticle with
    visibility := .users
    userPermissions := [⟨100, .allow, none⟩]
    sources := [⟨"google_drive"⟩] }
  remote := by decide
  governed := by decide
  rows := by decide

def twoDepartments : Imported (some "google_drive") where
  article := { financeArticle with
    departments := [engineering, finance]
    sources := [⟨"google_drive"⟩] }
  remote := by decide
  governed := by decide
  rows := by decide

/-- The provider shares the file with groups mapped to departments. -/
def sharedWith (departmentIds : List Id) : SourceAcl where
  mappedDepartmentIds := departmentIds
  mappedSourceUserIds := []
  unmappedGroupIds := []
  unmappedSourceUserIds := []
  unmappedPrincipalIds := []
  providerAclPresent := true
  sharepointAclPresent := false

def companyDirectory : Directory where
  accounts := [{ engineer with active := true }]
  departments := [engineering, finance]

def walked (departmentIds : List Id) : AclReport where
  dir := companyDirectory
  acl := sharedWith departmentIds
  pass := .walk false
  reloaded := true
  others := true

def afterFinance : Synced :=
  applyReports (some "google_drive") (beforeFirst twoDepartments (sharedWith [])) [walked [2]]

theorem narrowing_exact_iff_twoDepartments :
    Exact twoDepartments engineer (walked [1, 2])
        (applyReport (some "google_drive") (walked [1, 2]) afterFinance) ↔
      ¬ Lost companyDirectory (sharedWith [1, 2]) ((walked [1, 2]).inUse twoDepartments afterFinance)
          engineer twoDepartments.article ∧
        ¬ Gained companyDirectory (sharedWith [1, 2])
            ((walked [1, 2]).inUse twoDepartments afterFinance) engineer twoDepartments.article ∧
          ¬ ((walked [1, 2]).forgets afterFinance = true ∧
            Unsteady companyDirectory (sharedWith [1, 2])
              ((walked [1, 2]).inUse twoDepartments afterFinance) twoDepartments.article) :=
  narrowing_exact_iff twoDepartments (sharedWith []) [walked [2]] (walked [1, 2]) engineer
    (by decide)

/-- The engineer is on the article's list and in the group the source shares it with, and is locked
out; so is a member of Engineering, once the source has shared an article of two departments with
the other one. -/
theorem listed_member_locked_out :
    ¬ Exact importedArticle engineer (walked [1]) (applyReport (some "google_drive") (walked [1])
        (applyReports (some "google_drive") (beforeFirst importedArticle (sharedWith [])) [])) ∧
      ¬ Exact twoDepartments engineer (walked [1, 2])
        (applyReport (some "google_drive") (walked [1, 2]) afterFinance) := by
  refine ⟨fun h => ?_, fun h => ?_⟩
  · have hopens := h.view.mpr ⟨by unfold InternalAudience; decide, Or.inr (by decide)⟩
    exact absurd hopens (by decide)
  · have hopens := h.view.mpr ⟨by unfold InternalAudience; decide, Or.inr (by decide)⟩
    exact absurd hopens (by decide)

end QnscKb.Sync
