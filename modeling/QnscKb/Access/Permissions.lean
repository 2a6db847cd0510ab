import QnscKb.Access.Authorization

/-!
# Access — Permissions

`PermissionService` (`src/domain/permissions.py`): whether a user may open one article.
`canViewArticle` follows the early returns of the source, and `canViewArticle_eq` reads it as five
tests: live, granted, not denied, admitted by the provider and by the audience of its mode.
-/

namespace QnscKb.Access
open QnscKb.Where

/-! ### Explicit rows and provider rows -/

def hasEffect (u : User) (a : Article) (e : Effect) : Bool :=
  a.userPermissions.any fun override => override.userId == u.id && override.effect == e

def allowed (u : User) (a : Article) : Bool := hasEffect u a .allow

def denied (u : User) (a : Article) : Bool := hasEffect u a .deny

def explicitUserEffect (u : User) (a : Article) : Option Effect :=
  let effects := (a.userPermissions.filter fun override => override.userId == u.id).map (·.effect)
  if effects.contains .deny then some .deny
  else if effects.contains .allow then some .allow
  else none

def sharesDepartment (u : User) (a : Article) : Bool :=
  meets (u.departments.map (·.id)) (a.departments.map (·.id))

/-- `governed_by`: the remote providers among the systems of the article's sources. -/
def governedBy (a : Article) : List String :=
  (a.sources.map (·.sourceSystem)).filter fun system => SOURCE_ACL_PROVIDERS.contains system

/-- An allow row stamped with one of these providers. -/
def allowedBy (providers : List String) (u : User) (a : Article) : Bool :=
  a.userPermissions.any fun override =>
    override.userId == u.id && override.effect == .allow &&
      override.source.any fun source => providers.contains source

def sourceAclAllows (u : User) (a : Article) : Bool :=
  if (governedBy a).isEmpty then true
  else if allowedBy (governedBy a) u a then true
  else sharesDepartment u a

theorem effects_contains (u : User) (a : Article) (e : Effect) :
    ((a.userPermissions.filter fun override => override.userId == u.id).map
      (·.effect)).contains e = hasEffect u a e := by
  rw [Bool.eq_iff_iff, List.contains_iff_mem]
  simp only [hasEffect, List.mem_map, List.mem_filter, List.any_eq_true, Bool.and_eq_true,
    beq_iff_eq]
  exact ⟨fun ⟨p, ⟨hp, hu⟩, he⟩ => ⟨p, hp, hu, he⟩, fun ⟨p, hp, hu, he⟩ => ⟨p, ⟨hp, hu⟩, he⟩⟩

@[simp] theorem explicitUserEffect_deny (u : User) (a : Article) :
    (explicitUserEffect u a == some .deny) = denied u a := by
  simp only [explicitUserEffect, effects_contains, denied]
  cases hasEffect u a .deny <;> cases hasEffect u a .allow <;> rfl

variable {a : Article}

variable {u : User}

theorem explicitUserEffect_allow (h : denied u a = false) :
    (explicitUserEffect u a == some .allow) = allowed u a := by
  simp only [denied] at h
  simp only [explicitUserEffect, effects_contains, allowed, h]
  cases hasEffect u a .allow <;> rfl

theorem allowed_of_allowedBy {providers : List String} (h : allowedBy providers u a = true) :
    allowed u a = true := by
  simp only [allowedBy, List.any_eq_true, Bool.and_eq_true] at h
  obtain ⟨p, hp, hrow, -⟩ := h
  exact List.any_eq_true.mpr ⟨p, hp, Bool.and_eq_true _ _ ▸ hrow⟩

theorem allowedBy_mono {ps qs : List String} (h : ∀ p ∈ ps, p ∈ qs) (ha : allowedBy ps u a = true) :
    allowedBy qs u a = true := by
  simp only [allowedBy, List.any_eq_true, Bool.and_eq_true, Option.any_eq_true] at ha ⊢
  obtain ⟨p, hp, hrow, s, hs, hm⟩ := ha
  exact ⟨p, hp, hrow, s, hs, List.contains_iff_mem.mpr (h s (List.contains_iff_mem.mp hm))⟩

theorem governedBy_subset (a : Article) : ∀ p ∈ governedBy a, p ∈ SOURCE_ACL_PROVIDERS :=
  fun _ hp => List.contains_iff_mem.mp (List.mem_filter.mp hp).2

/-- The four keys that inspect unpublished content. -/
def governanceKeys : List PermissionKey :=
  [.articleReview, .articlePublish, .articleEdit, .articleDelete]

def governanceAccess (u : User) (a : Article) : Bool :=
  governanceKeys.any fun key => covers u key a.resource

/-- `article.status in {"draft", "pending_review", "archived"}`. -/
def ArticleStatus.working : ArticleStatus → Bool
  | .draft | .pendingReview | .archived => true
  | .published | .deleted => false

def canViewArticle (u : User) (a : Article) : Bool :=
  if a.status == .deleted || a.lifecycleStatus != .active then false
  else if !covers u .articleRead a.resource then false
  else
    let explicitEffect := explicitUserEffect u a
    if explicitEffect == some .deny then false
    else if !sourceAclAllows u a then false
    else if a.visibility == .users then explicitEffect == some .allow
    else if a.status.working && (a.ownerId != some u.id && !governanceAccess u a) then false
    else if hasFullCompanyArticleAccess u then true
    else if explicitEffect == some .allow then true
    else if a.sensitivity == .restricted && !sharesDepartment u a then false
    else canAccessArticleDepartments u a

/-! ### The tests it conjoins -/

def Article.live (a : Article) : Bool :=
  a.status != .deleted && a.lifecycleStatus == .active

def sameCompany (u : User) (a : Article) : Bool := a.companyDomain == u.companyDomain

def isOwner (u : User) (a : Article) : Bool := a.ownerId == some u.id

/-- One of the names is the primary department or a shared one, active or not. -/
def namesArticle (ns : List String) (a : Article) : Bool :=
  ns.contains a.dept || meets ns (sharedNames a)

/-- One of the names is the primary department or an active shared one. -/
def namesActive (ns : List String) (a : Article) : Bool :=
  ns.contains a.dept || meets ns (activeSharedNames a)

/-- What opening demands of unpublished content. -/
def openState (u : User) (a : Article) : Bool :=
  !a.status.working || isOwner u a || governanceAccess u a

/-- What opening demands of the audience of an article that is not for listed users. -/
def openAudience (u : User) (a : Article) : Bool :=
  hasFullCompanyArticleAccess u || allowed u a ||
    (a.sensitivity != .restricted || sharesDepartment u a) &&
      namesActive (memberDepartmentNames u) a

/-- **Opening an article**, as a conjunction. -/
theorem canViewArticle_eq (u : User) (a : Article) :
    canViewArticle u a =
      (a.live && covers u .articleRead a.resource && !denied u a && sourceAclAllows u a &&
        if a.visibility == .users then allowed u a else openState u a && openAudience u a) := by
  have hlive : (a.status == .deleted || a.lifecycleStatus != .active) = !a.live := by
    simp [Article.live, bne, Bool.not_and]
  cases hd : denied u a with
  | true => simp [canViewArticle, hd]
  | false =>
    simp only [canViewArticle, hlive, explicitUserEffect_allow hd, explicitUserEffect_deny, hd]
    cases a.live <;> cases covers u .articleRead a.resource <;> cases sourceAclAllows u a <;>
      cases a.visibility == .users <;> simp
    -- what is left is a live article, covered and not for listed users
    simp only [canAccessArticleDepartments_eq, openState, openAudience, isOwner, namesActive]
    cases hasFullCompanyArticleAccess u <;> cases allowed u a <;>
      cases governanceAccess u a <;> cases a.status.working <;> simp
    all_goals grind

/-! ### A covering grant, read off the article -/

theorem resourceDepartments_meets (ns : List String) (a : Article) :
    meets (resourceDepartments a.resource) ns = namesArticle ns a := by
  rw [meets_comm, Bool.eq_iff_iff]
  simp only [namesArticle, resourceDepartments, Article.resource, sharedNames, Bool.or_eq_true,
    meets_iff, List.contains_iff_mem, List.mem_append, Option.toList_some, List.mem_singleton]
  constructor
  · rintro ⟨x, hx, h | rfl⟩
    · exact Or.inr ⟨x, hx, h⟩
    · exact Or.inl hx
  · rintro (h | ⟨x, hx, h⟩)
    · exact ⟨a.dept, h, Or.inr rfl⟩
    · exact ⟨x, hx, Or.inl h⟩

theorem covers_article (u : User) (key : PermissionKey) (a : Article) :
    covers u key a.resource =
      (grants u key .global || grants u key .company && sameCompany u a ||
        grants u key .department && (sameCompany u a && namesArticle (ownedDepartmentNames u) a) ||
        grants u key .own && isOwner u a) := by
  rw [covers_eq, resourceDepartments_meets]
  rfl

theorem covers_foreign (key : PermissionKey) (h : sameCompany u a = false) :
    covers u key a.resource = (grants u key .global || grants u key .own && isOwner u a) := by
  rw [covers_article, h]
  simp

theorem namesArticle_of_namesActive {ns : List String} (h : namesActive ns a = true) :
    namesArticle ns a = true := by
  simp only [namesActive, namesArticle, Bool.or_eq_true] at h ⊢
  refine h.imp_right fun hm => ?_
  obtain ⟨x, hx, ha⟩ := meets_iff.mp hm
  obtain ⟨d, hd, rfl⟩ := List.mem_map.mp ha
  exact meets_iff.mpr ⟨d.name, hx, List.mem_map_of_mem (List.mem_of_mem_filter hd)⟩

theorem namesArticle_mono {ns ms : List String} (h : ∀ n ∈ ns, n ∈ ms)
    (hn : namesArticle ns a = true) : namesArticle ms a = true := by
  simp only [namesArticle, Bool.or_eq_true, List.contains_iff_mem] at hn ⊢
  exact hn.imp (h _) (meets_mono_left h)

@[simp] theorem namesArticle_nil (a : Article) : namesArticle [] a = false := by
  simp [namesArticle]

end QnscKb.Access
