import QnscKb.Access.ArticleFilters

/-!
# Access — Agreement of listing and opening

`_authorized_article_filters` and `can_view_article` state one boundary twice.  `canViewArticle_eq`
and `listAdmits_eq` put the two conjunctions side by side; what separates them is which test each
one leaves out.
-/

namespace QnscKb.Access
open QnscKb.Where

variable {u : User} {a : Article}

theorem canViewArticle_iff :
    canViewArticle u a = true ↔
      a.live = true ∧ covers u .articleRead a.resource = true ∧ denied u a = false ∧
        sourceAclAllows u a = true ∧ (a.visibility = .users → allowed u a = true) ∧
        (a.visibility ≠ .users → openState u a = true ∧ openAudience u a = true) := by
  rw [canViewArticle_eq]
  by_cases hv : a.visibility = .users <;> simp [hv, and_assoc]

theorem listAdmits_iff {table : List Department} :
    listAdmits table u a = true ↔
      holdsAny u .articleRead = true ∧ a.live = true ∧ primaryDepartmentActive table a = true ∧
        denied u a = false ∧ (grants u .articleRead .global = true ∨ sameCompany u a = true) ∧
        (a.visibility = .users → allowed u a = true) ∧
        (a.visibility ≠ .users → listAudience u a = true) ∧
        listSource u a = true ∧ listState u a = true := by
  rw [listAdmits_eq]
  by_cases hv : a.visibility = .users <;> simp [hv, and_assoc]

theorem sourceAclAllows_iff :
    sourceAclAllows u a = true ↔
      governedBy a = [] ∨ allowedBy (governedBy a) u a = true ∨ sharesDepartment u a = true := by
  simp only [sourceAclAllows]
  by_cases hg : governedBy a = []
  · simp [hg]
  · cases allowedBy (governedBy a) u a <;> simp [hg]

theorem listSource_iff :
    listSource u a = true ↔
      governedBy a = [] ∨ allowedBy SOURCE_ACL_PROVIDERS u a = true ∨
        sharesDepartment u a = true := by
  simp [listSource, or_assoc]

/-! ### What opening implies for the list -/

theorem listSource_of_open (h : sourceAclAllows u a = true) : listSource u a = true := by
  rw [listSource_iff]
  exact (sourceAclAllows_iff.mp h).imp_right (Or.imp_left (allowedBy_mono (governedBy_subset a)))

theorem listAudience_of_allowed (h : allowed u a = true) : listAudience u a = true := by
  simp [listAudience, h]

theorem listAudience_of_full (h : hasFullCompanyArticleAccess u = true) :
    listAudience u a = true := by
  simp [listAudience, h]

theorem namesArticle_of_member (h : namesActive (memberDepartmentNames u) a = true) :
    namesArticle (memberOrLegacyNames u) a = true :=
  namesArticle_mono (fun _ hn => List.mem_append_left _ hn) (namesArticle_of_namesActive h)

theorem listAudience_of_open (h : openAudience u a = true) : listAudience u a = true := by
  simp only [openAudience, Bool.or_eq_true, Bool.and_eq_true] at h
  rcases h with (h | h) | ⟨-, h⟩
  · exact listAudience_of_full h
  · exact listAudience_of_allowed h
  · simp [listAudience, namesArticle_of_member h]

theorem openState_of_owner (h : isOwner u a = true) : openState u a = true := by
  simp [openState, h]

/-- A governance key covers an article of the user's company, whatever makes the list show
unpublished content there. -/
theorem openState_of_listState (hc : sameCompany u a = true) (h : listState u a = true) :
    openState u a = true := by
  simp only [listState, holdsWide, holdsDepartmental, Bool.or_eq_true, Bool.and_eq_true,
    beq_iff_eq] at h
  simp only [openState, governanceAccess, governanceKeys, List.any_cons, List.any_nil,
    covers_article, hc, Bool.true_and, Bool.and_true, Bool.or_false, Bool.or_eq_true,
    Bool.and_eq_true, Bool.not_eq_true']
  rcases h with ((h | ((h | h) | h) | h) | ⟨h | h, hn⟩) | ⟨-, h⟩
  · simp [h, ArticleStatus.working]
  · simp [h]
  · simp [h]
  · simp [h]
  · simp [h]
  · simp [h, hn]
  · simp [h, hn]
  · simp [h]

/-! ### Where the two part -/

/-- The article is in a state the list never shows the user. -/
structure Unlisted (u : User) (a : Article) : Prop where
  unpublished : a.status ≠ .published
  notWide : holdsWide u = false
  notDepartmental : holdsDepartmental u = true → namesArticle (ownedDepartmentNames u) a = false
  notOwn : holdsOwn u = true → isOwner u a = false

theorem listState_eq_false : listState u a = false ↔ Unlisted u a := by
  simp only [listState, Bool.or_eq_false_iff, Bool.and_eq_false_imp, beq_eq_false_iff_ne]
  refine ⟨?_, ?_⟩
  · rintro ⟨⟨⟨h₁, h₂⟩, h₃⟩, h₄⟩
    exact ⟨h₁, h₂, h₃, h₄⟩
  · rintro ⟨h₁, h₂, h₃, h₄⟩
    exact ⟨⟨⟨h₁, h₂⟩, h₃⟩, h₄⟩

/-- A live article without a deny row that the list admits and opening refuses. -/
inductive ListedOnly (u : User) (a : Article) : Prop where
  /-- The grants held reach owned departments or own articles, and this is neither. -/
  | uncovered (company : sameCompany u a = true)
      (notGlobal : grants u .articleRead .global = false)
      (notCompany : grants u .articleRead .company = false)
      (held : grants u .articleRead .department = true ∨ grants u .articleRead .own = true)
      (notOwned : grants u .articleRead .department = true →
        namesArticle (ownedDepartmentNames u) a = false)
      (notOwner : grants u .articleRead .own = true → isOwner u a = false)
      (users : a.visibility = .users → allowed u a = true)
      (audience : a.visibility ≠ .users → listAudience u a = true)
      (source : listSource u a = true) (state : listState u a = true)
  /-- An allow row of a provider that does not govern the article. -/
  | provider (held : holdsAny u .articleRead = true)
      (tenant : grants u .articleRead .global = true ∨ sameCompany u a = true)
      (governed : governedBy a ≠ []) (otherRow : allowedBy SOURCE_ACL_PROVIDERS u a = true)
      (noRow : allowedBy (governedBy a) u a = false) (notShared : sharesDepartment u a = false)
      (state : listState u a = true)
  /-- Public content, the owner, the legacy department, an owned or an inactive shared one: no
  membership. -/
  | audience (held : holdsAny u .articleRead = true)
      (tenant : grants u .articleRead .global = true ∨ sameCompany u a = true)
      (mode : a.visibility ≠ .users) (notFull : hasFullCompanyArticleAccess u = false)
      (notAllowed : allowed u a = false)
      (listed : namesArticle (memberOrLegacyNames u) a = true ∨
        a.sensitivity = .publicContent ∨ isOwner u a = true ∨
        readsDepartments u = true ∧ namesArticle (ownedDepartmentNames u) a = true)
      (refused : namesActive (memberDepartmentNames u) a = false ∨
        a.sensitivity = .restricted ∧ sharesDepartment u a = false)
      (source : listSource u a = true) (state : listState u a = true)
  /-- Unpublished content of another company, shown to a global reader by a grant of his own. -/
  | foreignWork (foreign : sameCompany u a = false)
      (reader : grants u .articleRead .global = true) (mode : a.visibility ≠ .users)
      (working : a.status.working = true) (notOwner : isOwner u a = false)
      (notGlobal : ∀ key ∈ governanceKeys, grants u key .global = false)
      (shown : holdsWide u = true ∨
        holdsDepartmental u = true ∧ namesArticle (ownedDepartmentNames u) a = true)
      (source : listSource u a = true)

/-- A live article without a deny row that opens and is not listed. -/
inductive OpenedOnly (u : User) (a : Article) : Prop where
  /-- An own grant tests the owner and no company. -/
  | foreignOwner (foreign : sameCompany u a = false)
      (notGlobal : grants u .articleRead .global = false)
      (own : grants u .articleRead .own = true) (owner : isOwner u a = true)
      (source : sourceAclAllows u a = true)
      (users : a.visibility = .users → allowed u a = true)
      (audience : a.visibility ≠ .users → openAudience u a = true)
  /-- Unpublished content the list knows no reason to show. -/
  | unlisted (state : Unlisted u a) (covered : covers u .articleRead a.resource = true)
      (source : sourceAclAllows u a = true)
      (users : a.visibility = .users → allowed u a = true)
      (governed : a.visibility ≠ .users → isOwner u a = true ∨ governanceAccess u a = true)
      (audience : a.visibility ≠ .users → openAudience u a = true)

/-- Where listing and opening part. -/
def Parted (u : User) (a : Article) : Prop :=
  a.live = true ∧ denied u a = false ∧ (ListedOnly u a ∨ OpenedOnly u a)

variable {table : List Department} {u : User} {a : Article}

theorem holdsAny_iff : holdsAny u .articleRead = true ↔
    grants u .articleRead .global = true ∨ grants u .articleRead .company = true ∨
      grants u .articleRead .department = true ∨ grants u .articleRead .own = true := by
  simp [holdsAny_eq, or_assoc]

theorem not_covers_iff : covers u .articleRead a.resource = false ↔
    grants u .articleRead .global = false ∧
      (sameCompany u a = true → grants u .articleRead .company = false ∧
        (grants u .articleRead .department = true →
          namesArticle (ownedDepartmentNames u) a = false)) ∧
      (grants u .articleRead .own = true → isOwner u a = false) := by
  rw [covers_article]
  cases grants u .articleRead .global <;> cases grants u .articleRead .company <;>
    cases grants u .articleRead .department <;> cases grants u .articleRead .own <;>
    cases sameCompany u a <;> simp

theorem listAudience_eq_true_iff : listAudience u a = true ↔
    hasFullCompanyArticleAccess u = true ∨ allowed u a = true ∨
      namesArticle (memberOrLegacyNames u) a = true ∨ a.sensitivity = .publicContent ∨
      isOwner u a = true ∨
      readsDepartments u = true ∧ namesArticle (ownedDepartmentNames u) a = true := by
  simp only [listAudience, Bool.or_eq_true, Bool.and_eq_true, beq_iff_eq]
  tauto

theorem openAudience_eq_false_iff : openAudience u a = false ↔
    hasFullCompanyArticleAccess u = false ∧ allowed u a = false ∧
      (namesActive (memberDepartmentNames u) a = false ∨
        a.sensitivity = .restricted ∧ sharesDepartment u a = false) := by
  simp only [openAudience, Bool.or_eq_false_iff, Bool.and_eq_false_iff, bne_eq_false_iff_eq]
  tauto

theorem openState_foreign (hc : sameCompany u a = false) (ho : isOwner u a = false) :
    openState u a = false ↔
      a.status.working = true ∧ ∀ key ∈ governanceKeys, grants u key .global = false := by
  simp only [openState, governanceAccess, covers_foreign _ hc, ho, Bool.or_eq_false_iff,
    Bool.and_false, Bool.or_false, Bool.not_eq_false', List.any_eq_false, Bool.not_eq_true]

theorem ListedOnly.tenant (h : ListedOnly u a) :
    grants u .articleRead .global = true ∨ sameCompany u a = true := by
  cases h with
  | uncovered company => exact Or.inr company
  | provider _ tenant => exact tenant
  | audience _ tenant => exact tenant
  | foreignWork _ reader => exact Or.inl reader

theorem ListedOnly.lists (hl : a.live = true) (hd : denied u a = false)
    (hp : primaryDepartmentActive table a = true) (h : ListedOnly u a) :
    listAdmits table u a = true := by
  have ht := h.tenant
  rw [listAdmits_iff]
  cases h with
  | uncovered _ _ _ held _ _ users audience source state =>
    exact ⟨holdsAny_iff.mpr (Or.inr (Or.inr held)), hl, hp, hd, ht, users, audience, source,
      state⟩
  | provider held _ _ otherRow _ _ state =>
    have ha := allowed_of_allowedBy otherRow
    exact ⟨held, hl, hp, hd, ht, fun _ => ha, fun _ => listAudience_of_allowed ha,
      listSource_iff.mpr (Or.inr (Or.inl otherRow)), state⟩
  | audience held _ mode _ _ listed _ source state =>
    exact ⟨held, hl, hp, hd, ht, fun hu => absurd hu mode,
      fun _ => listAudience_eq_true_iff.mpr (Or.inr (Or.inr listed)), source, state⟩
  | foreignWork _ reader mode _ _ _ shown source =>
    refine ⟨holdsAny_iff.mpr (Or.inl reader), hl, hp, hd, ht, fun hu => absurd hu mode,
      fun _ => listAudience_of_full (full_of_global reader), source, ?_⟩
    simp only [listState, Bool.or_eq_true, Bool.and_eq_true]
    exact Or.inl (shown.imp_left Or.inr)

theorem ListedOnly.not_opens (h : ListedOnly u a) : canViewArticle u a = false := by
  rw [Bool.eq_false_iff, Ne, canViewArticle_iff]
  rintro ⟨-, hr, -, hs, -, hn⟩
  cases h with
  | uncovered _ notGlobal notCompany _ notOwned notOwner =>
    have hno := not_covers_iff.mpr ⟨notGlobal, fun _ => ⟨notCompany, notOwned⟩, notOwner⟩
    rw [hno] at hr
    cases hr
  | provider _ _ governed _ noRow notShared =>
    rcases sourceAclAllows_iff.mp hs with h | h | h
    · exact governed h
    · rw [noRow] at h; cases h
    · rw [notShared] at h; cases h
  | audience _ _ mode notFull notAllowed _ refused =>
    have hno := openAudience_eq_false_iff.mpr ⟨notFull, notAllowed, refused⟩
    rw [(hn mode).2] at hno
    cases hno
  | foreignWork foreign _ mode working notOwner notGlobal =>
    have hno := (openState_foreign foreign notOwner).mpr ⟨working, notGlobal⟩
    rw [(hn mode).1] at hno
    cases hno

theorem listedOnly_of (hlist : listAdmits table u a = true)
    (hopen : canViewArticle u a = false) : ListedOnly u a := by
  obtain ⟨held, hl, -, hd, tenant, users, audience, source, state⟩ := listAdmits_iff.mp hlist
  by_cases hr : covers u .articleRead a.resource = true
  swap
  · -- without a global grant the tenant test is the company
    obtain ⟨notGlobal, inside, notOwner⟩ := not_covers_iff.mp (Bool.eq_false_iff.mpr hr)
    have company : sameCompany u a = true := tenant.resolve_left (by simp [notGlobal])
    obtain ⟨notCompany, notOwned⟩ := inside company
    have hheld := holdsAny_iff.mp held
    simp only [notGlobal, notCompany, Bool.false_eq_true, false_or] at hheld
    exact .uncovered company notGlobal notCompany hheld notOwned notOwner users audience source
      state
  by_cases hs : sourceAclAllows u a = true
  swap
  · have hno := mt sourceAclAllows_iff.mpr hs
    push Not at hno
    obtain ⟨governed, noRow, notShared⟩ := hno
    have hrow := (listSource_iff.mp source).resolve_left governed |>.resolve_right notShared
    exact .provider held tenant governed hrow (Bool.eq_false_iff.mpr noRow)
      (Bool.eq_false_iff.mpr notShared) state
  -- the rest of opening is left, and in the mode for listed users nothing is
  have mode : a.visibility ≠ .users := fun hu => Bool.eq_false_iff.mp hopen
    (canViewArticle_iff.mpr ⟨hl, hr, hd, hs, users, fun hn => absurd hu hn⟩)
  have hno : openState u a = false ∨ openAudience u a = false := by
    by_contra hno
    simp only [not_or, Bool.not_eq_false] at hno
    exact Bool.eq_false_iff.mp hopen
      (canViewArticle_iff.mpr ⟨hl, hr, hd, hs, users, fun _ => hno⟩)
  rcases hno with hno | hno
  · by_cases hc : sameCompany u a = true
    · rw [openState_of_listState hc state] at hno; cases hno
    have hc' := Bool.eq_false_iff.mpr hc
    have ho : isOwner u a = false :=
      Bool.eq_false_iff.mpr fun ho => by rw [openState_of_owner ho] at hno; cases hno
    obtain ⟨working, notGlobal⟩ := (openState_foreign hc' ho).mp hno
    refine .foreignWork hc' (tenant.resolve_right hc) mode working ho notGlobal ?_ source
    simp only [listState, ho, Bool.and_false, Bool.or_false, Bool.or_eq_true, Bool.and_eq_true,
      beq_iff_eq] at state
    rcases state with (h | h) | h
    · rw [h] at working; cases working
    · exact Or.inl h
    · exact Or.inr h
  · obtain ⟨notFull, notAllowed, refused⟩ := openAudience_eq_false_iff.mp hno
    have hlisted := listAudience_eq_true_iff.mp (audience mode)
    simp only [notFull, notAllowed, Bool.false_eq_true, false_or] at hlisted
    exact .audience held tenant mode notFull notAllowed hlisted refused source state

theorem OpenedOnly.opens (hl : a.live = true) (hd : denied u a = false) (h : OpenedOnly u a) :
    canViewArticle u a = true := by
  rw [canViewArticle_iff]
  cases h with
  | foreignOwner foreign _ own owner source users audience =>
    have hr : covers u .articleRead a.resource = true := by
      rw [covers_foreign _ foreign, own, owner]; simp
    exact ⟨hl, hr, hd, source, users, fun hn => ⟨openState_of_owner owner, audience hn⟩⟩
  | unlisted _ covered source users governed audience =>
    refine ⟨hl, covered, hd, source, users, fun hn => ⟨?_, audience hn⟩⟩
    rcases governed hn with h | h
    · exact openState_of_owner h
    · simp [openState, h]

theorem OpenedOnly.not_lists (h : OpenedOnly u a) : listAdmits table u a = false := by
  rw [Bool.eq_false_iff, Ne, listAdmits_iff]
  rintro ⟨-, -, -, -, tenant, -, -, -, state⟩
  cases h with
  | foreignOwner foreign notGlobal =>
    rcases tenant with h | h
    · rw [notGlobal] at h; cases h
    · rw [foreign] at h; cases h
  | unlisted hno =>
    rw [listState_eq_false.mpr hno] at state
    cases state

theorem openedOnly_of (hp : primaryDepartmentActive table a = true)
    (hlist : listAdmits table u a = false) (hopen : canViewArticle u a = true) :
    OpenedOnly u a := by
  obtain ⟨hl, hr, hd, source, users, rest⟩ := canViewArticle_iff.mp hopen
  by_cases hst : listState u a = true
  · have htenant : ¬ (grants u .articleRead .global = true ∨ sameCompany u a = true) :=
      fun tenant => Bool.eq_false_iff.mp hlist (listAdmits_iff.mpr
        ⟨holdsAny_of_covers hr, hl, hp, hd, tenant, users,
          fun hn => listAudience_of_open (rest hn).2, listSource_of_open source, hst⟩)
    simp only [not_or, Bool.not_eq_true] at htenant
    obtain ⟨notGlobal, foreign⟩ := htenant
    rw [covers_foreign _ foreign, notGlobal, Bool.false_or, Bool.and_eq_true] at hr
    exact .foreignOwner foreign notGlobal hr.1 hr.2 source users fun hn => (rest hn).2
  · have hno := listState_eq_false.mp (Bool.eq_false_iff.mpr hst)
    refine .unlisted hno hr source users (fun hn => ?_) fun hn => (rest hn).2
    have hworking : a.status.working = true := by
      have hne := hno.unpublished
      simp only [Article.live] at hl
      cases hs : a.status <;> simp_all [ArticleStatus.working]
    simpa [openState, hworking] using (rest hn).1

/-- **Listing and opening agree exactly off the six kinds**, at every article whose primary
department is active. -/
theorem list_iff_open_iff (table : List Department) (u : User) (a : Article)
    (hp : primaryDepartmentActive table a = true) :
    (listAdmits table u a = true ↔ canViewArticle u a = true) ↔ ¬ Parted u a := by
  constructor
  · rintro h ⟨hl, hd, hk | hk⟩
    · have hopen := h.mp (hk.lists hl hd hp)
      rw [hk.not_opens] at hopen
      cases hopen
    · have hlist := h.mpr (hk.opens hl hd)
      rw [hk.not_lists] at hlist
      cases hlist
  · intro h
    constructor
    · intro hlist
      obtain ⟨-, hl, -, hd, -⟩ := listAdmits_iff.mp hlist
      by_contra hopen
      exact h ⟨hl, hd, Or.inl (listedOnly_of hlist (Bool.eq_false_iff.mpr hopen))⟩
    · intro hopen
      obtain ⟨hl, -, hd, -⟩ := canViewArticle_iff.mp hopen
      by_contra hlist
      exact h ⟨hl, hd, Or.inr (openedOnly_of hp (Bool.eq_false_iff.mpr hlist) hopen)⟩

/-! ### Public content of another department -/

def engineering : Department := ⟨1, "qnsc.vn", "Engineering", true, by decide⟩

def finance : Department := ⟨2, "qnsc.vn", "Finance", true, by decide⟩

def roleOf (name : String) (permissions : List RolePermission) : Role where
  id := 10
  name := name
  companyDomain := some "qnsc.vn"
  active := some true
  permissions := permissions

def engineer : User where
  id := 100
  companyDomain := "qnsc.vn"
  dept := none
  role := "Staff"
  departments := [engineering]
  departmentOwnerships := []
  roles := [roleOf "Staff" [⟨.articleRead, .company⟩]]

/-- A published article of Finance, without sources, rows or shared departments. -/
def financeArticle : Article where
  id := 1000
  dept := "Finance"
  companyDomain := "qnsc.vn"
  sensitivity := .publicContent
  visibility := .department
  ownerId := some 200
  status := .published
  lifecycleStatus := .active
  indexStatus := .ready
  departments := []
  userPermissions := []
  sources := []

theorem list_iff_open_iff_financeArticle :
    (listAdmits [engineering, finance] engineer financeArticle = true ↔
      canViewArticle engineer financeArticle = true) ↔ ¬ Parted engineer financeArticle :=
  list_iff_open_iff [engineering, finance] engineer financeArticle (by decide)

/-- A public article of a department the reader is no member of is listed and does not open. -/
theorem public_article_listed_and_refused :
    ¬ ∀ (table : List Department) (u : User) (a : Article),
      primaryDepartmentActive table a = true →
        (listAdmits table u a = true ↔ canViewArticle u a = true) := by
  intro h
  have hopen := (h [engineering, finance] engineer financeArticle (by decide)).mp (by decide)
  exact absurd hopen (by decide)

end QnscKb.Access
