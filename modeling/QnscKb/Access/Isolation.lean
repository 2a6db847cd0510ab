import QnscKb.Access.Agreement

/-!
# Access — Isolation of companies

A reader that no role row makes global, at an article of another company.
-/

namespace QnscKb.Access
open QnscKb.Where

/-- No active, company-matching role row grants `article.read` globally. -/
def NoGlobalReadRole (u : User) : Prop :=
  ∀ role ∈ u.roles, role.applies u = true →
    ∀ p ∈ role.permissions, ¬ (p.key = .articleRead ∧ p.scope = .global)

instance (u : User) : Decidable (NoGlobalReadRole u) :=
  inferInstanceAs (Decidable (∀ role ∈ u.roles, role.applies u = true →
    ∀ p ∈ role.permissions, ¬ (p.key = .articleRead ∧ p.scope = .global)))

theorem defaultScope_read_global {name : String}
    (h : defaultScope name .articleRead = some .global) : name = "Admin" := by
  simp only [defaultScope, DEFAULT_ROLE_PERMISSIONS, List.lookup_cons] at h
  by_cases h₁ : name = "Admin"
  · exact h₁
  have e₁ : (name == "Admin") = false := beq_eq_false_iff_ne.mpr h₁
  rw [e₁] at h
  cases e₂ : name == "CEO" <;> cases e₃ : name == "Reviewer" <;> cases e₄ : name == "Staff" <;>
    simp [e₂, e₃, e₄] at h

theorem defaultScope_admin (key : PermissionKey) : defaultScope "Admin" key = some .global := by
  cases key <;> decide

theorem grants_admin {u : User} (hr : u.roles = []) (ha : u.role = "Admin")
    (key : PermissionKey) : grants u key .global = true := by
  simp [grants, grantedScopes, hr, ha, defaultScope_admin]

theorem grants_global_iff {u : User} (hn : NoGlobalReadRole u) :
    grants u .articleRead .global = true ↔ u.roles = [] ∧ u.role = "Admin" := by
  constructor
  · intro h
    rw [grants, List.contains_iff_mem, grantedScopes] at h
    split at h
    · rename_i scope hs
      obtain rfl := List.mem_singleton.mp h
      cases hr : u.roles with
      | nil =>
        simp only [hr] at hs
        exact ⟨rfl, defaultScope_read_global hs⟩
      | cons role roles => simp [hr] at hs
    · obtain ⟨role, hrole, hp⟩ := List.mem_flatMap.mp h
      obtain ⟨hmem, happ⟩ := List.mem_filter.mp hrole
      obtain ⟨p, hpm, hscope⟩ := List.mem_map.mp hp
      obtain ⟨hpr, hkey⟩ := List.mem_filter.mp hpm
      exact absurd ⟨by simpa using hkey, hscope⟩ (hn role hmem happ p hpr)
  · rintro ⟨hr, ha⟩
    exact grants_admin hr ha _

/-! ### What still crosses -/

/-- An article of another company that one of the paths admits. -/
inductive Crosses (table : List Department) (u : User) (a : Article) : Prop where
  /-- The owner, through an `own` grant: opening only. -/
  | owner (own : grants u .articleRead .own = true) (owns : isOwner u a = true)
      (source : sourceAclAllows u a = true)
      (audience : a.visibility ≠ .users → openAudience u a = true)
  /-- The scalar role text `Admin` on an account without role rows. -/
  | legacyAdmin (noRoles : u.roles = []) (admin : u.role = "Admin")
      (source : sourceAclAllows u a = true ∨
        primaryDepartmentActive table a = true ∧ listSource u a = true)

/-- Live, not denied, and with an allow row where the visibility asks for one. -/
structure Approachable (u : User) (a : Article) : Prop where
  live : a.live = true
  notDenied : denied u a = false
  users : a.visibility = .users → allowed u a = true

variable {table : List Department} {u : User} {a : Article}

theorem foreign_opens_iff (hc : sameCompany u a = false) (hn : NoGlobalReadRole u) :
    canViewArticle u a = true ↔ Approachable u a ∧ sourceAclAllows u a = true ∧
      (grants u .articleRead .own = true ∧ isOwner u a = true ∧
        (a.visibility ≠ .users → openAudience u a = true) ∨
        u.roles = [] ∧ u.role = "Admin") := by
  rw [canViewArticle_iff, covers_foreign _ hc, Bool.or_eq_true, Bool.and_eq_true,
    grants_global_iff hn]
  constructor
  · rintro ⟨hl, hr | ⟨own, owns⟩, hd, hs, users, rest⟩
    · exact ⟨⟨hl, hd, users⟩, hs, Or.inr hr⟩
    · exact ⟨⟨hl, hd, users⟩, hs, Or.inl ⟨own, owns, fun hv => (rest hv).2⟩⟩
  · rintro ⟨⟨hl, hd, users⟩, hs, ⟨own, owns, audience⟩ | ⟨noRoles, admin⟩⟩
    · exact ⟨hl, Or.inr ⟨own, owns⟩, hd, hs, users,
        fun hv => ⟨openState_of_owner owns, audience hv⟩⟩
    · have hfull : hasFullCompanyArticleAccess u = true :=
        full_of_global (grants_admin noRoles admin _)
      have hgov : governanceAccess u a = true := by
        simp [governanceAccess, governanceKeys, covers_article,
          grants_admin noRoles admin .articleReview]
      exact ⟨hl, Or.inl ⟨noRoles, admin⟩, hd, hs, users,
        fun _ => ⟨by simp [openState, hgov], by simp [openAudience, hfull]⟩⟩

theorem foreign_lists_iff (hc : sameCompany u a = false) (hn : NoGlobalReadRole u) :
    listAdmits table u a = true ↔ Approachable u a ∧ u.roles = [] ∧ u.role = "Admin" ∧
      primaryDepartmentActive table a = true ∧ listSource u a = true := by
  rw [listAdmits_iff, hc, grants_global_iff hn]
  constructor
  · rintro ⟨-, hl, hp, hd, tenant, users, -, hs, -⟩
    obtain ⟨noRoles, admin⟩ := tenant.resolve_right Bool.false_ne_true
    exact ⟨⟨hl, hd, users⟩, noRoles, admin, hp, hs⟩
  · rintro ⟨⟨hl, hd, users⟩, noRoles, admin, hp, hs⟩
    have hg := grants_admin noRoles admin
    exact ⟨holdsAny_iff.mpr (Or.inl (hg _)), hl, hp, hd, Or.inl ⟨noRoles, admin⟩, users,
      fun _ => listAudience_of_full (full_of_global (hg _)), hs,
      by simp [listState, holdsWide, hg .articleReview]⟩

/-- **Isolation**: without a global role row, neither path admits an article of another company
exactly off the two kinds. -/
theorem foreign_refused_iff (table : List Department) (u : User) (a : Article)
    (hn : NoGlobalReadRole u) (hc : a.companyDomain ≠ u.companyDomain) :
    (canViewArticle u a = false ∧ listAdmits table u a = false) ↔
      ¬ (Approachable u a ∧ Crosses table u a) := by
  have hc' : sameCompany u a = false := beq_eq_false_iff_ne.mpr hc
  rw [Bool.eq_false_iff, Bool.eq_false_iff, Ne, Ne, foreign_opens_iff hc' hn,
    foreign_lists_iff hc' hn, ← not_or]
  refine not_congr ⟨?_, ?_⟩
  · rintro (⟨happ, hs, ⟨own, owns, audience⟩ | ⟨noRoles, admin⟩⟩ |
      ⟨happ, noRoles, admin, hp, hs⟩)
    · exact ⟨happ, .owner own owns hs audience⟩
    · exact ⟨happ, .legacyAdmin noRoles admin (Or.inl hs)⟩
    · exact ⟨happ, .legacyAdmin noRoles admin (Or.inr ⟨hp, hs⟩)⟩
  · rintro ⟨happ, hk⟩
    cases hk with
    | owner own owns source audience =>
      exact Or.inl ⟨happ, source, Or.inl ⟨own, owns, audience⟩⟩
    | legacyAdmin noRoles admin source =>
      rcases source with hs | ⟨hp, hs⟩
      · exact Or.inl ⟨happ, hs, Or.inr ⟨noRoles, admin⟩⟩
      · exact Or.inr ⟨happ, noRoles, admin, hp, hs⟩

/-- A department of another company with the name of the article's. -/
def partnerFinance : Department := { finance with id := 3, companyDomain := "partner.vn" }

def partnerAuthor : User where
  id := 200
  companyDomain := "partner.vn"
  dept := none
  role := "Staff"
  departments := [partnerFinance]
  departmentOwnerships := []
  roles := [{ roleOf "Author" [⟨.articleRead, .own⟩] with companyDomain := some "partner.vn" }]

theorem foreign_refused_iff_partnerAuthor :
    (canViewArticle partnerAuthor financeArticle = false ∧
        listAdmits [finance] partnerAuthor financeArticle = false) ↔
      ¬ (Approachable partnerAuthor financeArticle ∧
        Crosses [finance] partnerAuthor financeArticle) :=
  foreign_refused_iff [finance] partnerAuthor financeArticle (by decide) (by decide)

/-- The owner of an article opens it from another company. -/
theorem owner_opens_foreign_article :
    ¬ ∀ (table : List Department) (u : User) (a : Article), NoGlobalReadRole u →
      a.companyDomain ≠ u.companyDomain →
        canViewArticle u a = false ∧ listAdmits table u a = false := by
  intro h
  exact absurd (h [finance] partnerAuthor financeArticle (by decide) (by decide)).1 (by decide)

end QnscKb.Access
