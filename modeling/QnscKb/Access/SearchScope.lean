import QnscKb.Access.Agreement

/-!
# Access — SearchScope

The third statement of the audience: `SearchService._search_pass` narrows the filters of a user
(`src/domain/search_service.py`) and `ChunkRepository.hybrid_search` conjoins them with the shared
predicate (`src/repositories/chunk.py`).
-/

namespace QnscKb.Access
open QnscKb.Where

/-! ### The narrowed filters -/

/-- The keys of `effective_filters` that depend on the user. -/
structure EffectiveFilters where
  companyDomain : Option String
  departments : Option (List String)
  ownerId : Option Id
  deriving DecidableEq

/-- `effective_filters` of a search without filters of its own. -/
def effectiveFilters (u : User) : EffectiveFilters :=
  let companyDomain :=
    if hasPermission u .articleRead none .global then none else some u.companyDomain
  let departments :=
    if hasFullCompanyArticleAccess u then none else some (memberDepartmentNames u)
  if !hasPermission u .articleRead none .company then
    if hasPermission u .articleRead none .department then
      ⟨companyDomain, some (ownedDepartmentNames u), none⟩
    else if hasPermission u .articleRead none .own then ⟨companyDomain, departments, some u.id⟩
    else ⟨companyDomain, departments, none⟩
  else ⟨companyDomain, departments, none⟩

/-- The department names `hybrid_search` keeps: stripped, and not empty. -/
def strippedNames (filters : EffectiveFilters) : List String :=
  ((filters.departments.getD []).map strip).filter (· != "")

def scopeConditions (filters : EffectiveFilters) : List (Article → Bool) :=
  [fun a => a.sensitivity == .publicContent] ++
    (if (strippedNames filters).isEmpty then [] else [namesArticle (strippedNames filters)]) ++
    match filters.ownerId with
    | some owner => [fun a => a.ownerId == some owner]
    | none => []

/-- The conjuncts `hybrid_search` adds to the shared predicate. -/
def scopeClauses (table : List Department) (filters : EffectiveFilters) : List (Article → Bool) :=
  (match filters.companyDomain with
    | some company => if company = "" then [] else [fun a => a.companyDomain == company]
    | none => []) ++
    (if (scopeConditions filters).length > 1 then
      [fun a => (scopeConditions filters).any fun c => c a]
    else []) ++
    [primaryDepartmentActive table]

/-- `where_clauses` of `hybrid_search`. -/
def searchClauses (table : List Department) (u : User) : List (Article → Bool) :=
  [fun a => a.status == .published, fun a => a.lifecycleStatus == .active,
    fun a => a.indexStatus == .ready] ++
    authorizedArticleFilters table u ++ [fun a => !denied u a] ++
    scopeClauses table (effectiveFilters u)

def searchAdmits (table : List Department) (u : User) (a : Article) : Bool :=
  hasArticleReadPermission u && admits (searchClauses table u) a

/-! ### What the narrowing asks -/

theorem strip_member {u : User} : (memberDepartmentNames u).map strip = memberDepartmentNames u := by
  rw [memberDepartmentNames, List.map_map]
  exact List.map_congr_left fun d _ => d.strip_name

theorem strip_owned {u : User} : (ownedDepartmentNames u).map strip = ownedDepartmentNames u := by
  rw [ownedDepartmentNames, List.map_map]
  exact List.map_congr_left fun m _ => m.department.strip_name

theorem strippedNames_of (filters : EffectiveFilters) {ns : List String}
    (hd : filters.departments = some ns) (hs : ns.map strip = ns) (hne : ∀ n ∈ ns, n ≠ "") :
    strippedNames filters = ns := by
  rw [strippedNames, hd, Option.getD_some, hs]
  exact List.filter_eq_self.mpr fun n hn => by simpa using hne n hn

/-- The names a search is narrowed to, as the scopes held decide them. -/
def scopeNames (u : User) : List String :=
  if grants u .articleRead .global || grants u .articleRead .company then
    if hasFullCompanyArticleAccess u then [] else memberDepartmentNames u
  else if grants u .articleRead .department then ownedDepartmentNames u
  else memberDepartmentNames u

def scopeOwner (u : User) : Bool :=
  !readsDepartments u && grants u .articleRead .own

theorem effectiveFilters_names (u : User) : strippedNames (effectiveFilters u) = scopeNames u := by
  have hm := strippedNames_of ⟨none, some (memberDepartmentNames u), none⟩ rfl
    strip_member fun _ => ne_empty_of_mem_member
  have ho := strippedNames_of ⟨none, some (ownedDepartmentNames u), none⟩ rfl
    strip_owned fun _ => ne_empty_of_mem_owned
  simp only [strippedNames, Option.getD_some] at hm ho
  simp only [strippedNames, effectiveFilters, scopeNames, full_eq, hasPermission_company,
    hasPermission_department, hasPermission_own]
  cases grants u .articleRead .global <;> cases grants u .articleRead .company <;>
    cases grants u .articleRead .department <;> cases grants u .articleRead .own <;>
    cases privilegedRole u <;> simp [hm, ho]

theorem effectiveFilters_owner (u : User) :
    (effectiveFilters u).ownerId = if scopeOwner u then some u.id else none := by
  cases hg : grants u .articleRead .global <;> cases hc : grants u .articleRead .company <;>
    cases hd : grants u .articleRead .department <;> cases ho : grants u .articleRead .own <;>
    simp [effectiveFilters, scopeOwner, readsDepartments, hg, hc, hd, ho]

theorem effectiveFilters_company (u : User) :
    (effectiveFilters u).companyDomain =
      if grants u .articleRead .global then none else some u.companyDomain := by
  simp only [effectiveFilters, hasPermission_global]
  split
  · split
    · rfl
    · split <;> rfl
  · rfl

/-- The disjunction of `scope_conditions`; without a second disjunct it is not applied. -/
def inScope (u : User) (a : Article) : Bool :=
  (scopeNames u).isEmpty && !scopeOwner u || a.sensitivity == .publicContent ||
    namesArticle (scopeNames u) a || scopeOwner u && isOwner u a

theorem scopeConditions_eq (u : User) (a : Article) :
    ((scopeConditions (effectiveFilters u)).length > 1 →
      ((scopeConditions (effectiveFilters u)).any fun c => c a) = true) ↔ inScope u a = true := by
  rw [scopeConditions, effectiveFilters_names, effectiveFilters_owner, inScope]
  cases scopeNames u with
  | nil => cases scopeOwner u <;> simp [isOwner]
  | cons n ns => cases scopeOwner u <;> simp [isOwner, or_assoc]

/-- **Retrieval**: an indexed published article the shared predicate admits, in scope. -/
theorem searchAdmits_iff (table : List Department) (u : User) (a : Article) :
    searchAdmits table u a = true ↔
      a.status = .published ∧ a.indexStatus = .ready ∧ listAdmits table u a = true ∧
        inScope u a = true := by
  rw [← scopeConditions_eq]
  simp only [searchAdmits, searchClauses, scopeClauses, effectiveFilters_company,
    hasArticleReadPermission, admits_append, admits_cons, admits_nil, Bool.and_eq_true, beq_iff_eq,
    Bool.and_true]
  constructor
  · rintro ⟨-, ⟨⟨⟨hs, -, hi⟩, hlist⟩, -⟩, ⟨-, hscope⟩, -⟩
    refine ⟨hs, hi, hlist, fun hlen => ?_⟩
    rw [if_pos hlen] at hscope
    simpa using hscope
  · rintro ⟨hs, hi, hlist, hscope⟩
    obtain ⟨held, hl, hp, hd, tenant, -⟩ := listAdmits_iff.mp hlist
    have hactive : a.lifecycleStatus = .active := by
      simp only [Article.live, Bool.and_eq_true, beq_iff_eq] at hl
      exact hl.2
    refine ⟨held, ⟨⟨⟨hs, hactive, hi⟩, hlist⟩, by simp [hd]⟩, ⟨?_, ?_⟩, hp⟩
    · cases hg : grants u .articleRead .global with
      | true => rfl
      | false =>
        have hc : sameCompany u a = true := tenant.resolve_left (by simp [hg])
        by_cases he : u.companyDomain = ""
        · simp [he]
        · simpa [he, sameCompany] using hc
    · split
      · rename_i hlen
        simpa using hscope hlen
      · rfl

/-! ### What the narrowing leaves out -/

/-- A readable article outside the scope the search is narrowed to. -/
inductive Missed (u : User) (a : Article) : Prop where
  /-- A company reader with memberships, at an article no membership names. -/
  | member (company : grants u .articleRead .company = true)
      (notFull : hasFullCompanyArticleAccess u = false) (notPublic : a.sensitivity ≠ .publicContent)
      (some : memberDepartmentNames u ≠ [])
      (notNamed : namesArticle (memberDepartmentNames u) a = false)
  /-- A department reader with ownerships, at an article no ownership names. -/
  | owned (notGlobal : grants u .articleRead .global = false)
      (notCompany : grants u .articleRead .company = false)
      (department : grants u .articleRead .department = true)
      (notPublic : a.sensitivity ≠ .publicContent) (some : ownedDepartmentNames u ≠ [])
      (notNamed : namesArticle (ownedDepartmentNames u) a = false)

variable {u : User} {a : Article}

theorem inScope_eq_false_iff : inScope u a = false ↔
    (scopeNames u ≠ [] ∨ scopeOwner u = true) ∧ a.sensitivity ≠ .publicContent ∧
      namesArticle (scopeNames u) a = false ∧ (scopeOwner u = true → isOwner u a = false) := by
  cases hn : scopeNames u <;> cases ho : scopeOwner u <;> simp [inScope, hn, ho, and_assoc]

theorem owner_of_scopeOwner (h : scopeOwner u = true)
    (hr : covers u .articleRead a.resource = true) : isOwner u a = true := by
  simp only [scopeOwner, readsDepartments, Bool.and_eq_true, Bool.not_eq_true',
    Bool.or_eq_false_iff] at h
  obtain ⟨⟨⟨hg, hc⟩, hd⟩, -⟩ := h
  rw [covers_article, hg, hc, hd] at hr
  simp only [Bool.false_and, Bool.false_or, Bool.and_eq_true] at hr
  exact hr.2

theorem Missed.out_of_scope (h : Missed u a) : inScope u a = false := by
  rw [inScope_eq_false_iff]
  cases h with
  | member company notFull notPublic some notNamed =>
    have hg : grants u .articleRead .global = false :=
      Bool.eq_false_iff.mpr fun hg => by rw [full_of_global hg] at notFull; cases notFull
    have hn : scopeNames u = memberDepartmentNames u := by
      simp [scopeNames, hg, company, notFull]
    have ho : scopeOwner u = false := by simp [scopeOwner, readsDepartments, company]
    rw [hn, ho]
    exact ⟨Or.inl some, notPublic, notNamed, fun h => by cases h⟩
  | owned notGlobal notCompany department notPublic some notNamed =>
    have hn : scopeNames u = ownedDepartmentNames u := by
      simp [scopeNames, notGlobal, notCompany, department]
    have ho : scopeOwner u = false := by simp [scopeOwner, readsDepartments, department]
    rw [hn, ho]
    exact ⟨Or.inl some, notPublic, notNamed, fun h => by cases h⟩

theorem missed_of (held : holdsAny u .articleRead = true)
    (hr : covers u .articleRead a.resource = true) (h : inScope u a = false) : Missed u a := by
  obtain ⟨hsome, notPublic, notNamed, hown⟩ := inScope_eq_false_iff.mp h
  have ho : scopeOwner u = false := Bool.eq_false_iff.mpr fun ho => by
    have hno := hown ho
    rw [owner_of_scopeOwner ho hr] at hno
    cases hno
  have hne : scopeNames u ≠ [] := hsome.resolve_right (by rw [ho]; exact Bool.false_ne_true)
  cases hg : grants u .articleRead .global with
  | true =>
    exact absurd (by simp [scopeNames, hg, full_of_global hg]) hne
  | false =>
    cases hc : grants u .articleRead .company with
    | true =>
      cases hf : hasFullCompanyArticleAccess u with
      | true => exact absurd (by simp [scopeNames, hc, hf]) hne
      | false =>
        have hn : scopeNames u = memberDepartmentNames u := by simp [scopeNames, hg, hc, hf]
        rw [hn] at hne notNamed
        exact .member hc hf notPublic hne notNamed
    | false =>
      have hd : grants u .articleRead .department = true := by
        rcases holdsAny_iff.mp held with h | h | h | h
        · rw [hg] at h; cases h
        · rw [hc] at h; cases h
        · exact h
        · cases hd : grants u .articleRead .department with
          | true => rfl
          | false => simp [scopeOwner, readsDepartments, hg, hc, hd, h] at ho
      have hn : scopeNames u = ownedDepartmentNames u := by simp [scopeNames, hg, hc, hd]
      rw [hn] at hne notNamed
      exact .owned hg hc hd notPublic hne notNamed

/-- **Search reaches a readable article exactly off the two kinds.** -/
theorem search_finds_iff (table : List Department) (u : User) (a : Article)
    (hlist : listAdmits table u a = true) (hopen : canViewArticle u a = true)
    (hs : a.status = .published) (hi : a.indexStatus = .ready) :
    searchAdmits table u a = true ↔ ¬ Missed u a := by
  have hr := (canViewArticle_iff.mp hopen).2.1
  rw [searchAdmits_iff]
  constructor
  · rintro ⟨-, -, -, hscope⟩ hk
    rw [hk.out_of_scope] at hscope
    cases hscope
  · intro hk
    refine ⟨hs, hi, hlist, ?_⟩
    by_contra hno
    exact hk (missed_of (holdsAny_of_covers hr) hr (Bool.eq_false_iff.mpr hno))

def sharedFinanceArticle : Article :=
  { financeArticle with
    sensitivity := .internal
    userPermissions := [⟨100, .allow, none⟩] }

theorem search_finds_iff_sharedFinanceArticle :
    searchAdmits [engineering, finance] engineer sharedFinanceArticle = true ↔
      ¬ Missed engineer sharedFinanceArticle :=
  search_finds_iff [engineering, finance] engineer sharedFinanceArticle (by decide) (by decide)
    rfl rfl

/-- An article readable by its allow row alone is no candidate of its reader's search. -/
theorem allowed_article_not_found :
    ¬ ∀ (table : List Department) (u : User) (a : Article), listAdmits table u a = true →
      canViewArticle u a = true → a.status = .published → a.indexStatus = .ready →
        searchAdmits table u a = true := by
  intro h
  exact absurd (h [engineering, finance] engineer sharedFinanceArticle (by decide) (by decide)
    rfl rfl) (by decide)

end QnscKb.Access
