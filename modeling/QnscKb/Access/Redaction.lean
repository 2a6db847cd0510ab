import QnscKb.Access.Agreement

/-!
# Access — Redaction

`restrict_article_metadata` of `src/domain/rbac.py` keeps on an article the departments that are
named like the reader's, so that no others are displayed.  The object stays in the session, and what
asks it later whether the reader may view, edit or delete the article reads what was kept, but
compares ids, over all memberships and ownerships.
-/

namespace QnscKb.Access
open QnscKb.Where

/-! ### The code -/

def visibleDepartments (u : User) (a : Article) : List Department :=
  a.departments.filter fun department => (memberDepartmentNames u).contains department.name

/-- The article as it is displayed to a user who does not read the whole company. -/
def redacted (u : User) (a : Article) : Article :=
  { a with
    departments := visibleDepartments u a
    dept := match visibleDepartments u a with
      | first :: _ => if (memberDepartmentNames u).contains a.dept then a.dept else first.name
      | [] => a.dept }

def restrictArticleMetadata (u : User) (a : Article) : Article :=
  if hasPermission u .articleRead none .global || hasFullCompanyArticleAccess u then a
  else redacted u a

/-- What `can_edit_article` and `can_delete_article` ask for their keys. -/
def changes (u : User) (key : PermissionKey) (a : Article) : Bool :=
  [Scope.own, .department, .company].any fun scope =>
    hasPermission u key (some a.resource) scope

def canEditArticle (u : User) (a : Article) : Bool := changes u .articleEdit a

def canDeleteArticle (u : User) (a : Article) : Bool := changes u .articleDelete a

/-- The department names on the object: the primary one and the shared ones. -/
def labels (a : Article) : List String := a.dept :: sharedNames a

/-- The names on the object are the user's, when one of them was. -/
def LabelsHidden (u : User) (a : Article) : Prop :=
  meets (memberDepartmentNames u) (labels a) = true →
    ∀ name ∈ labels (restrictArticleMetadata u a), name ∈ memberDepartmentNames u

/-- The three decisions, on the redacted object as on the stored one. -/
structure DecisionsAgree (u : User) (a : Article) : Prop where
  view : canViewArticle u (restrictArticleMetadata u a) = canViewArticle u a
  edit : canEditArticle u (restrictArticleMetadata u a) = canEditArticle u a
  delete : canDeleteArticle u (restrictArticleMetadata u a) = canDeleteArticle u a

/-- Redaction hides the labels, does so once and for all, and changes no decision. -/
structure Harmless (u : User) (a : Article) : Prop where
  hidden : LabelsHidden u a
  again : restrictArticleMetadata u (restrictArticleMetadata u a) = restrictArticleMetadata u a
  agree : DecisionsAgree u a

/-! ### The condition -/

/-- A grant that does not rest on departments covers the article. -/
def coversBeside (u : User) (key : PermissionKey) (a : Article) : Bool :=
  grants u key .global || grants u key .company && sameCompany u a ||
    grants u key .own && isOwner u a

/-- A department the user owns is one he is a member of too, by name, or is the primary one and
stays so. -/
def keepsOwned (u : User) (a : Article) : Bool :=
  meets (ownedDepartmentNames u) ((visibleDepartments u a).map (·.name)) ||
    (ownedDepartmentNames u).contains a.dept &&
      ((memberDepartmentNames u).contains a.dept || (visibleDepartments u a).isEmpty)

/-- A grant covers the article, one over owned departments by what is kept of them. -/
def coversKept (u : User) (key : PermissionKey) (a : Article) : Bool :=
  coversBeside u key a || grants u key .department && (sameCompany u a && keepsOwned u a)

/-- A department that is shared by id carries the name of an active membership. -/
def keepsShared (u : User) (a : Article) : Bool :=
  meets (u.departments.map (·.id)) ((visibleDepartments u a).map (·.id))

/-- What each decision rests on is kept. -/
structure Kept (u : User) (a : Article) : Prop where
  read : coversKept u .articleRead a = true
  edit : covers u .articleEdit a.resource = true → coversKept u .articleEdit a = true
  delete : covers u .articleDelete a.resource = true → coversKept u .articleDelete a = true
  governance : a.visibility ≠ .users → a.status.working = true → isOwner u a = false →
    governanceKeys.any (fun key => coversKept u key a) = true
  source : (governedBy a).isEmpty = false → allowedBy (governedBy a) u a = false →
    keepsShared u a = true
  restricted : a.visibility ≠ .users → allowed u a = false → a.sensitivity = .restricted →
    keepsShared u a = true

/-! ### What is left of an article -/

variable {u : User}

theorem restrict_full (h : hasFullCompanyArticleAccess u = true) (a : Article) :
    restrictArticleMetadata u a = a := by
  rw [restrictArticleMetadata, h, Bool.or_true, if_pos rfl]

theorem restrict_narrow (h : hasFullCompanyArticleAccess u = false) (a : Article) :
    restrictArticleMetadata u a = redacted u a := by
  have hglobal : hasPermission u .articleRead none .global = false := by
    by_contra hgrants
    rw [full_of_global (by simpa using hgrants)] at h
    cases h
  rw [restrictArticleMetadata, h, hglobal, Bool.or_false, if_neg Bool.false_ne_true]

variable {a : Article}

theorem mem_visible {d : Department} :
    d ∈ visibleDepartments u a ↔ d ∈ a.departments ∧ d.name ∈ memberDepartmentNames u := by
  rw [visibleDepartments, List.mem_filter, List.contains_iff_mem]

theorem redacted_dept_mem (h : meets (memberDepartmentNames u) (labels a) = true) :
    (redacted u a).dept ∈ memberDepartmentNames u := by
  obtain ⟨name, hmember, hlabel⟩ := meets_iff.mp h
  rw [redacted]
  cases hvisible : visibleDepartments u a with
  | nil =>
    rcases List.mem_cons.mp hlabel with rfl | hshared
    · exact hmember
    · obtain ⟨d, hd, rfl⟩ := List.mem_map.mp hshared
      have hkept := mem_visible.mpr ⟨hd, hmember⟩
      rw [hvisible] at hkept
      cases hkept
  | cons first rest =>
    split_ifs with hdept
    · exact List.contains_iff_mem.mp hdept
    · have hfirst : first ∈ visibleDepartments u a := hvisible ▸ List.mem_cons_self
      exact (mem_visible.mp hfirst).2

/-- **The names that are left** are the user's, when one of the article's is. -/
theorem restrict_names (h : hasFullCompanyArticleAccess u = false) (a : Article) :
    LabelsHidden u a := by
  intro hshares name hname
  rw [restrict_narrow h] at hname
  rcases List.mem_cons.mp hname with rfl | hshared
  · exact redacted_dept_mem hshares
  · obtain ⟨d, hd, rfl⟩ := List.mem_map.mp hshared
    exact (mem_visible.mp hd).2

theorem visible_redacted (u : User) (a : Article) :
    visibleDepartments u (redacted u a) = visibleDepartments u a := by
  exact List.filter_eq_self.mpr fun d hd => List.contains_iff_mem.mpr (mem_visible.mp hd).2

theorem redacted_redacted (u : User) (a : Article) :
    redacted u (redacted u a) = redacted u a := by
  have hdept : (redacted u (redacted u a)).dept = (redacted u a).dept := by
    rw [redacted, visible_redacted]
    cases hvisible : visibleDepartments u a with
    | nil => rfl
    | cons first rest =>
      have hfirst : first ∈ visibleDepartments u a := hvisible ▸ List.mem_cons_self
      have hmember : (redacted u a).dept ∈ memberDepartmentNames u := by
        refine redacted_dept_mem (meets_iff.mpr ⟨first.name, (mem_visible.mp hfirst).2, ?_⟩)
        exact List.mem_cons_of_mem _ (List.mem_map_of_mem (mem_visible.mp hfirst).1)
      exact if_pos (List.contains_iff_mem.mpr hmember)
  have heta : redacted u (redacted u a) = { redacted u a with
      departments := visibleDepartments u (redacted u a)
      dept := (redacted u (redacted u a)).dept } := rfl
  rw [heta, visible_redacted, hdept]
  rfl

/-- **A second application** changes nothing. -/
theorem restrict_restrict (u : User) (a : Article) :
    restrictArticleMetadata u (restrictArticleMetadata u a) = restrictArticleMetadata u a := by
  cases hfull : hasFullCompanyArticleAccess u with
  | true => rw [restrict_full hfull, restrict_full hfull]
  | false => rw [restrict_narrow hfull, restrict_narrow hfull, redacted_redacted]

/-! ### What a grant reads -/

theorem changes_eq_covers (u : User) (key : PermissionKey) (a : Article) :
    changes u key a = covers u key a.resource := by
  rw [changes, covers, allScopes, Bool.eq_iff_iff]
  simp only [List.any_cons, List.any_nil, Bool.or_false, Bool.or_eq_true]
  constructor
  · tauto
  · rintro (h | h | h | h)
    · exact .inl h
    · exact .inr (.inl h)
    · exact .inr (.inr h)
    -- only a global grant answers for the global scope, and it answers for the others
    · rw [hasPermission_global] at h
      refine .inl ?_
      rw [hasPermission_eq_any, List.any_eq_true]
      exact ⟨.global, List.contains_iff_mem.mp h, rfl⟩

theorem covers_eq_beside (u : User) (key : PermissionKey) (a : Article) :
    covers u key a.resource = (coversBeside u key a || grants u key .department &&
      (sameCompany u a && namesArticle (ownedDepartmentNames u) a)) := by
  rw [covers_article, coversBeside, Bool.or_right_comm]

theorem namesArticle_redacted (u : User) (a : Article) :
    namesArticle (ownedDepartmentNames u) (redacted u a) = keepsOwned u a := by
  rw [namesArticle, keepsOwned, Bool.or_comm]
  have hnames : sharedNames (redacted u a) = (visibleDepartments u a).map (·.name) := rfl
  rw [hnames]
  cases hvisible : visibleDepartments u a with
  | nil => rw [redacted, hvisible, List.isEmpty_nil, Bool.or_true, Bool.and_true]
  | cons first rest =>
    rw [redacted, hvisible]
    split_ifs with hdept
    · rw [hdept, Bool.true_or, Bool.and_true]
    -- the first of them has taken the place of the primary one
    · rw [Bool.eq_iff_iff]
      simp only [hdept, List.isEmpty_cons, Bool.or_false, Bool.and_false, Bool.or_eq_true,
        List.contains_iff_mem]
      refine ⟨fun h => h.elim id fun hfirst => meets_iff.mpr ⟨first.name, hfirst, ?_⟩, .inl⟩
      exact List.mem_cons_self

theorem covers_redacted (u : User) (key : PermissionKey) (a : Article) :
    covers u key (redacted u a).resource = coversKept u key a := by
  rw [covers_eq_beside, namesArticle_redacted]
  rfl

theorem keepsOwned_names (h : keepsOwned u a = true) :
    namesArticle (ownedDepartmentNames u) a = true := by
  rw [keepsOwned, Bool.or_eq_true, Bool.and_eq_true] at h
  rw [namesArticle, Bool.or_eq_true]
  rcases h with hshared | hdept
  · obtain ⟨name, howned, hname⟩ := meets_iff.mp hshared
    obtain ⟨d, hd, rfl⟩ := List.mem_map.mp hname
    exact .inr (meets_iff.mpr ⟨d.name, howned, List.mem_map_of_mem (mem_visible.mp hd).1⟩)
  · exact .inl hdept.1

theorem covers_of_kept {key : PermissionKey} (h : coversKept u key a = true) :
    covers u key a.resource = true := by
  rw [covers_eq_beside]
  rw [coversKept, Bool.or_eq_true, Bool.and_eq_true, Bool.and_eq_true] at h
  rcases h with hbeside | ⟨hgrants, hcompany, howned⟩
  · rw [hbeside, Bool.true_or]
  · rw [hgrants, hcompany, keepsOwned_names howned, Bool.and_true, Bool.and_true, Bool.or_true]

/-! ### What opening reads -/

section Opening

variable {u : User} {a : Article}

theorem sourceAclAllows_redacted : sourceAclAllows u (redacted u a) = true ↔
    ((governedBy a).isEmpty = false → allowedBy (governedBy a) u a = false →
      keepsShared u a = true) := by
  have hsame : sourceAclAllows u (redacted u a) =
      if (governedBy a).isEmpty then true
      else if allowedBy (governedBy a) u a then true else keepsShared u a := rfl
  rw [hsame]
  cases (governedBy a).isEmpty <;> cases allowedBy (governedBy a) u a <;> simp

theorem openState_redacted : openState u (redacted u a) = true ↔
    (a.status.working = true → isOwner u a = false →
      governanceKeys.any (fun key => coversKept u key a) = true) := by
  have hgovernance : governanceAccess u (redacted u a) =
      governanceKeys.any fun key => coversKept u key a := by
    exact congrArg governanceKeys.any (funext fun key => covers_redacted u key a)
  have hsame : openState u (redacted u a) =
      (!a.status.working || isOwner u a || governanceAccess u (redacted u a)) := rfl
  rw [hsame, hgovernance]
  cases a.status.working <;> cases isOwner u a <;> simp

theorem namesActive_redacted (h : namesActive (memberDepartmentNames u) a = true) :
    namesActive (memberDepartmentNames u) (redacted u a) = true := by
  have hlabels : meets (memberDepartmentNames u) (labels a) = true := by
    rw [namesActive, Bool.or_eq_true, List.contains_iff_mem] at h
    rcases h with hdept | hshared
    · exact meets_iff.mpr ⟨a.dept, hdept, List.mem_cons_self⟩
    · obtain ⟨name, hmember, hname⟩ := meets_iff.mp hshared
      obtain ⟨d, hd, rfl⟩ := List.mem_map.mp hname
      exact meets_iff.mpr ⟨d.name, hmember,
        List.mem_cons_of_mem _ (List.mem_map_of_mem (List.mem_of_mem_filter hd))⟩
  rw [namesActive, Bool.or_eq_true]
  exact .inl (List.contains_iff_mem.mpr (redacted_dept_mem hlabels))

theorem openAudience_redacted (hfull : hasFullCompanyArticleAccess u = false)
    (h : openAudience u a = true) : openAudience u (redacted u a) = true ↔
      (allowed u a = false → a.sensitivity = .restricted → keepsShared u a = true) := by
  have hsame : openAudience u (redacted u a) = (allowed u a ||
      (a.sensitivity != .restricted || keepsShared u a) &&
        namesActive (memberDepartmentNames u) (redacted u a)) := by
    rw [openAudience, hfull]
    rfl
  rw [openAudience, hfull, Bool.false_or] at h
  rw [hsame]
  cases hallowed : allowed u a with
  | true => simp
  | false =>
    rw [hallowed, Bool.false_or, Bool.and_eq_true] at h
    rw [namesActive_redacted h.2]
    cases hkept : keepsShared u a <;> simp [bne_iff_ne]

theorem canViewArticle_redacted (hfull : hasFullCompanyArticleAccess u = false)
    (h : canViewArticle u a = true) : canViewArticle u (redacted u a) = true ↔
      coversKept u .articleRead a = true ∧
        ((governedBy a).isEmpty = false → allowedBy (governedBy a) u a = false →
          keepsShared u a = true) ∧
        (a.visibility ≠ .users →
          (a.status.working = true → isOwner u a = false →
            governanceKeys.any (fun key => coversKept u key a) = true) ∧
          (allowed u a = false → a.sensitivity = .restricted → keepsShared u a = true)) := by
  rw [canViewArticle_eq] at h
  simp only [Bool.and_eq_true] at h
  obtain ⟨⟨⟨⟨hlive, -⟩, hdenied⟩, -⟩, haudience⟩ := h
  have hsame : canViewArticle u (redacted u a) =
      (a.live && covers u .articleRead (redacted u a).resource && !denied u a &&
        sourceAclAllows u (redacted u a) && if a.visibility == .users then allowed u a
          else openState u (redacted u a) && openAudience u (redacted u a)) :=
    canViewArticle_eq u (redacted u a)
  rw [hsame, covers_redacted, hlive, hdenied, Bool.true_and, Bool.and_true, Bool.and_eq_true,
    Bool.and_eq_true, sourceAclAllows_redacted, and_assoc]
  refine and_congr_right' (and_congr_right' ?_)
  by_cases husers : a.visibility = .users
  · rw [husers] at haudience ⊢
    exact iff_of_true haudience fun hne => absurd rfl hne
  · rw [if_neg (by simpa using husers), Bool.and_eq_true] at haudience
    rw [if_neg (by simpa using husers), Bool.and_eq_true, openState_redacted,
      openAudience_redacted hfull haudience.2]
    exact ⟨fun hboth _ => hboth, fun hboth => hboth husers⟩

end Opening

/-! ### The decisions -/

/-- **Nothing is gained** by redaction. -/
theorem restrict_no_gain {key : PermissionKey}
    (h : changes u key (restrictArticleMetadata u a) = true) : changes u key a = true := by
  cases hfull : hasFullCompanyArticleAccess u with
  | true => rwa [restrict_full hfull] at h
  | false =>
    rw [restrict_narrow hfull, changes_eq_covers, covers_redacted] at h
    rw [changes_eq_covers]
    exact covers_of_kept h

theorem changes_redacted_iff (u : User) (key : PermissionKey) (a : Article) :
    changes u key (redacted u a) = changes u key a ↔
      (covers u key a.resource = true → coversKept u key a = true) := by
  rw [changes_eq_covers, changes_eq_covers, covers_redacted]
  constructor
  · rintro hsame hcovers
    rw [hsame, hcovers]
  · intro h
    exact Bool.eq_iff_iff.mpr ⟨covers_of_kept, h⟩

/-- **The decisions agree** exactly when the user reads the whole company, or what they rest on is
kept. -/
theorem decisions_iff (h : canViewArticle u a = true) :
    DecisionsAgree u a ↔ hasFullCompanyArticleAccess u = true ∨ Kept u a := by
  cases hfull : hasFullCompanyArticleAccess u with
  | true =>
    refine iff_of_true ⟨?_, ?_, ?_⟩ (.inl rfl) <;> rw [restrict_full hfull]
  | false =>
    rw [or_iff_right Bool.false_ne_true]
    have hview := canViewArticle_redacted hfull h
    constructor
    · rintro ⟨hviews, hedits, hdeletes⟩
      rw [restrict_narrow hfull] at hviews hedits hdeletes
      obtain ⟨hread, hsource, haudience⟩ := hview.mp (hviews.trans h)
      exact
        { read := hread
          edit := (changes_redacted_iff u .articleEdit a).mp hedits
          delete := (changes_redacted_iff u .articleDelete a).mp hdeletes
          governance := fun husers => (haudience husers).1
          source := hsource
          restricted := fun husers => (haudience husers).2 }
    · intro hkept
      refine ⟨?_, ?_, ?_⟩
      · rw [restrict_narrow hfull, h, hview]
        exact ⟨hkept.read, hkept.source,
          fun husers => ⟨hkept.governance husers, hkept.restricted husers⟩⟩
      · rw [restrict_narrow hfull]
        exact (changes_redacted_iff u .articleEdit a).mpr hkept.edit
      · rw [restrict_narrow hfull]
        exact (changes_redacted_iff u .articleDelete a).mpr hkept.delete

/-- **Redaction**: a reader of the company keeps the object, another one the names that are his; a
second application changes nothing, no decision is gained, and the decisions agree exactly when what
they rest on is kept. -/
theorem redaction_spec {u : User} {a : Article} (h : canViewArticle u a = true) :
    (hasFullCompanyArticleAccess u = true → restrictArticleMetadata u a = a) ∧
      (hasFullCompanyArticleAccess u = false → LabelsHidden u a) ∧
      restrictArticleMetadata u (restrictArticleMetadata u a) = restrictArticleMetadata u a ∧
      (∀ key, changes u key (restrictArticleMetadata u a) = true → changes u key a = true) ∧
      (DecisionsAgree u a ↔ hasFullCompanyArticleAccess u = true ∨ Kept u a) :=
  ⟨fun hfull => restrict_full hfull a, fun hfull => restrict_names hfull a, restrict_restrict u a,
    fun _ => restrict_no_gain, decisions_iff h⟩

def financeAndEngineering : Article :=
  { financeArticle with departments := [finance, engineering] }

theorem redaction_engineer : LabelsHidden engineer financeAndEngineering ∧
    DecisionsAgree engineer financeAndEngineering := by
  have h := redaction_spec (u := engineer) (a := financeAndEngineering) (by decide +kernel)
  refine ⟨h.2.1 (by decide), h.2.2.2.2.mpr (.inr ?_)⟩
  exact
    { read := by decide +kernel
      edit := by decide +kernel
      delete := by decide +kernel
      governance := by decide +kernel
      source := by decide +kernel
      restricted := by decide +kernel }

def chief : User :=
  { engineer with role := "CEO", roles := [roleOf "CEO" [⟨.articleRead, .company⟩]] }

def archive : Department := ⟨3, "qnsc.vn", "Archive", false, by decide⟩

def archivist : User := { engineer with departments := [engineering, archive] }

/-- A synchronised article of Engineering that the provider shares with the closed department. -/
def archivedPlan : Article :=
  { financeArticle with
    dept := "Engineering", departments := [archive], sources := [⟨"sharepoint"⟩] }

/-- **A reader of the company** sees a name that is not his, **and a reader by a closed department**
cannot open the article once it was redacted. -/
theorem shown_and_lost :
    (canViewArticle chief financeAndEngineering = true ∧ ¬Harmless chief financeAndEngineering) ∧
      canViewArticle archivist archivedPlan = true ∧ ¬Harmless archivist archivedPlan := by
  refine ⟨⟨by decide +kernel, fun h => ?_⟩, by decide +kernel, fun h => ?_⟩
  · have hfinance := h.hidden (by decide +kernel) "Finance" (by decide +kernel)
    revert hfinance
    decide +kernel
  · have hview := h.agree.view
    revert hview
    decide +kernel

end QnscKb.Access
