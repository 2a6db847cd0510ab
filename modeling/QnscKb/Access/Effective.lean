import QnscKb.Access.Fingerprint

/-!
# Access — Effective

The permissions a user is shown (`get_effective_permissions`, the widest scope of each key) beside
the check that is made of them (`has_permission` without a resource, which asks every assignment and
lets no department grant answer for `own`; both in `src/domain/rbac.py`).
-/

namespace QnscKb.Access

/-- The list has the key with a scope that is at least as wide. -/
def Listed (u : User) (key : PermissionKey) (s : Scope) : Prop :=
  ∃ scope, (key, scope) ∈ getEffectivePermissions u ∧ s.rank ≤ scope.rank

variable {s : Scope}

theorem Scope.rank_pos (h : s.known = true) : 0 < s.rank := by
  cases s with
  | own | department | company | global => exact Nat.succ_pos _
  | other text => cases h

theorem listed_iff_held {u : User} {key : PermissionKey} (hs : s.known = true) :
    Listed u key s ↔ (grantedScopes u key).any fun held => decide (s.rank ≤ held.rank) := by
  rw [List.any_eq_true]
  constructor
  · rintro ⟨scope, hscope, hle⟩
    have hheld := (effectiveScope_held (mem_getEffectivePermissions.mp hscope)).1
    exact ⟨scope, hheld, decide_eq_true hle⟩
  · rintro ⟨held, hheld, hle⟩
    have hwide := (of_decide_eq_true hle).trans (rank_le_effectiveScope hheld)
    cases heffective : effectiveScope u key with
    | none =>
      rw [heffective] at hwide
      exact absurd hwide (Nat.not_le.mpr (Scope.rank_pos hs))
    | some scope =>
      rw [heffective] at hwide
      exact ⟨scope, mem_getEffectivePermissions.mpr heffective, hwide⟩

/-- What the list says of a key and a scope, read off what the user holds. -/
theorem listed_iff {u : User} {key : PermissionKey} (hs : s.known = true) :
    Listed u key s ↔ (grants u key .global && decide (s.rank ≤ 4) ||
      grants u key .company && decide (s.rank ≤ 3) ||
      grants u key .department && decide (s.rank ≤ 2) ||
      grants u key .own && decide (s.rank ≤ 1)) = true := by
  rw [listed_iff_held hs, any_grantedScopes u key]
  · rfl
  · exact fun text => decide_eq_false (Nat.not_le.mpr (Scope.rank_pos hs))

/-- The user holds the key for departments, and at no other scope. -/
def DepartmentsAlone (u : User) (key : PermissionKey) : Prop :=
  grants u key .department = true ∧ grants u key .own = false ∧ grants u key .company = false ∧
    grants u key .global = false

/-- **What is shown and what is checked** agree, but on `own` for who holds the key for departments
alone. -/
theorem effective_agrees_iff (u : User) (key : PermissionKey) {s : Scope} (hs : s.known = true) :
    (hasPermission u key none s = true ↔ Listed u key s) ↔
      ¬ (s = .own ∧ DepartmentsAlone u key) := by
  rw [listed_iff hs]
  cases s with
  | other text => cases hs
  | own =>
    -- the check asks for `own`, `company` and `global`, the list for any scope as wide
    simp only [hasPermission_own, DepartmentsAlone, Scope.rank]
    cases grants u key .global <;> cases grants u key .company <;>
      cases grants u key .department <;> cases grants u key .own <;> simp
  | department =>
    simp only [hasPermission_department, Scope.rank]
    cases grants u key .global <;> cases grants u key .company <;>
      cases grants u key .department <;> simp
  | company =>
    simp only [hasPermission_company, Scope.rank]
    cases grants u key .global <;> cases grants u key .company <;> simp
  | global =>
    simp only [hasPermission_global, Scope.rank]
    cases grants u key .global <;> simp

def departmentAuthor : User where
  id := 1
  companyDomain := "qnsc.vn"
  dept := none
  role := "Author"
  departments := []
  departmentOwnerships := []
  roles := [⟨1, "Author", some "qnsc.vn", some true, [⟨.articleCreate, .department⟩]⟩]

theorem effective_agrees_iff_departmentAuthor :
    hasPermission departmentAuthor .articleCreate none .department = true ↔
      Listed departmentAuthor .articleCreate .department :=
  (effective_agrees_iff departmentAuthor .articleCreate (s := .department) rfl).mpr
    fun h => by cases h.1

/-- The list has the department scope, and the check for the narrower one fails. -/
theorem own_not_checked :
    ¬ ∀ (u : User) (key : PermissionKey) (s : Scope), s.known = true →
      (hasPermission u key none s = true ↔ Listed u key s) := by
  intro h
  have hlisted : Listed departmentAuthor .articleCreate .own :=
    ⟨.department, by decide, by decide⟩
  have hchecked := (h departmentAuthor .articleCreate .own rfl).mpr hlisted
  exact absurd hchecked (by decide)

end QnscKb.Access
