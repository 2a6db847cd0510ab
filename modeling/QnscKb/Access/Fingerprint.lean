import QnscKb.Access.ArticleFilters

/-!
# Access — Fingerprint

`get_effective_permissions` and the payload `authorization_fingerprint` hashes
(`src/domain/rbac.py`).  The digest is taken injective, so a fingerprint is its payload, and what it
pins is the user, his company and departments, and the widest scope of every key.
-/

namespace QnscKb.Access
open QnscKb.Where

/-! ### Effective permissions -/

/-- `rank`, zero for a text outside it. -/
def Scope.rank : Scope → Nat
  | .own => 1
  | .department => 2
  | .company => 3
  | .global => 4
  | .other _ => 0

/-- `rank.get(scope, 0)` where nothing is stored yet. -/
def storedRank : Option Scope → Nat
  | none => 0
  | some s => s.rank

/-- One assignment of the loop of `get_effective_permissions`. -/
def widen (stored : Option Scope) (s : Scope) : Option Scope :=
  if s.rank > storedRank stored then some s else stored

/-- What `result` holds for a key at the end. -/
def effectiveScope (u : User) (key : PermissionKey) : Option Scope :=
  if u.roles.isEmpty then defaultScope u.role key
  else
    ((u.roles.filter fun role => role.applies u).flatMap fun role =>
      (role.permissions.filter fun p => p.key == key).map (·.scope)).foldl widen none

def getEffectivePermissions (u : User) : List (PermissionKey × Scope) :=
  PermissionKey.sorted.filterMap fun key => (effectiveScope u key).map fun s => (key, s)

/-- The entry of a role: `(str(role.id), role.name, role.company_domain, bool(role.active))`. -/
structure RoleEntry where
  id : Id
  name : String
  companyDomain : Option String
  active : Bool
  deriving DecidableEq

/-- The dictionary that is dumped and hashed. -/
structure Payload where
  userId : Id
  companyDomain : String
  dept : Option String
  ownedDepartments : List String
  roles : List RoleEntry
  permissions : List (PermissionKey × Scope)
  departments : List (Id × String)
  deriving DecidableEq

def Role.entry (role : Role) : RoleEntry :=
  ⟨role.id, role.name, role.companyDomain, role.active.getD false⟩

/-- The payload of `authorization_fingerprint`; sorting the tuples is sorting by the id of the row.
-/
def authorizationPayload (u : User) : Payload where
  userId := u.id
  companyDomain := u.companyDomain
  dept := u.dept
  ownedDepartments := (ownedDepartmentNames u).dedup.insertionSort fun x y => x ≤ y
  roles := (u.roles.map Role.entry).insertionSort fun x y => x.id ≤ y.id
  permissions := getEffectivePermissions u
  departments := (u.departments.map fun d => (d.id, d.name)).insertionSort fun x y => x.1 ≤ y.1

/-! ### What the payload pins -/

theorem storedRank_le_foldl (l : List Scope) (acc : Option Scope) :
    storedRank acc ≤ storedRank (l.foldl widen acc) := by
  induction l generalizing acc with
  | nil => exact Nat.le_refl _
  | cons s l ih =>
    refine Nat.le_trans ?_ (ih (widen acc s))
    unfold widen
    split
    · rename_i h
      exact Nat.le_of_lt h
    · exact Nat.le_refl _

variable {s : Scope}

theorem rank_le_foldl {l : List Scope} (h : s ∈ l) (acc : Option Scope) :
    s.rank ≤ storedRank (l.foldl widen acc) := by
  induction l generalizing acc with
  | nil => cases h
  | cons x l ih =>
    rcases List.mem_cons.mp h with rfl | h
    · refine Nat.le_trans ?_ (storedRank_le_foldl l (widen acc s))
      unfold widen
      split
      · exact Nat.le_refl _
      · rename_i hle
        exact Nat.not_lt.mp hle
    · exact ih h (widen acc x)

theorem foldl_widen_mem (l : List Scope) (acc : Option Scope) (h : l.foldl widen acc = some s) :
    acc = some s ∨ s ∈ l ∧ s.known = true := by
  induction l generalizing acc with
  | nil => exact Or.inl h
  | cons x l ih =>
    rcases ih (widen acc x) h with hw | ⟨hm, hk⟩
    · unfold widen at hw
      split at hw
      · rename_i hr
        obtain rfl := Option.some.inj hw
        refine Or.inr ⟨List.mem_cons_self, ?_⟩
        cases x <;> first | rfl | exact absurd hr (Nat.not_lt_zero _)
      · exact Or.inl hw
    · exact Or.inr ⟨List.mem_cons_of_mem _ hm, hk⟩

variable {key : PermissionKey}

theorem defaultScope_known {name : String} (h : defaultScope name key = some s) :
    s.known = true := by
  have hall : ∀ entry ∈ DEFAULT_ROLE_PERMISSIONS, ∀ p ∈ entry.2, p.scope.known = true := by decide
  obtain ⟨permissions, hl, hp⟩ := Option.bind_eq_some_iff.mp h
  obtain ⟨p, hf, rfl⟩ := Option.map_eq_some_iff.mp hp
  obtain ⟨l₁, l₂, heq, -⟩ := List.lookup_eq_some_iff.mp hl
  exact hall (name, permissions) (by rw [heq]; simp) p (List.mem_of_find?_eq_some hf)

variable {u : User}

/-- It is one of those granted. -/
theorem effectiveScope_held (h : effectiveScope u key = some s) :
    s ∈ grantedScopes u key ∧ s.known = true := by
  unfold effectiveScope at h
  cases hr : u.roles.isEmpty with
  | true =>
    rw [hr, if_pos rfl] at h
    refine ⟨?_, defaultScope_known h⟩
    simp [grantedScopes, hr, h]
  | false =>
    rw [hr] at h
    rcases foldl_widen_mem _ none h with h | ⟨h, hk⟩
    · cases h
    · refine ⟨?_, hk⟩
      simpa [grantedScopes, hr] using h

/-- The effective scope is the widest one granted. -/
theorem rank_le_effectiveScope (h : s ∈ grantedScopes u key) :
    s.rank ≤ storedRank (effectiveScope u key) := by
  unfold grantedScopes at h
  unfold effectiveScope
  cases hr : u.roles.isEmpty with
  | true =>
    rw [hr, if_pos rfl] at h
    cases hd : defaultScope u.role key with
    | none => simp [hd, List.isEmpty_iff.mp hr] at h
    | some d =>
      simp only [hd, List.mem_singleton] at h
      rw [h]
      exact Nat.le_refl _
  | false =>
    rw [hr, if_neg Bool.false_ne_true] at h
    rw [if_neg Bool.false_ne_true]
    exact rank_le_foldl h none

theorem grants_global_iff_effective (u : User) (key : PermissionKey) :
    grants u key .global = true ↔ effectiveScope u key = some .global := by
  rw [grants, List.contains_iff_mem]
  constructor
  · intro h
    have hle := rank_le_effectiveScope h
    cases he : effectiveScope u key with
    | none => rw [he] at hle; exact absurd hle (by decide)
    | some s =>
      rw [he] at hle
      cases s <;> first | rfl | exact absurd hle (by simp [storedRank, Scope.rank])
  · exact fun h => (effectiveScope_held h).1

theorem holdsAny_iff_effective (u : User) (key : PermissionKey) :
    holdsAny u key = true ↔ (effectiveScope u key).isSome = true := by
  constructor
  · intro h
    have hmem : ∃ s ∈ grantedScopes u key, 0 < s.rank := by
      simp only [holdsAny_eq, grants, Bool.or_eq_true, List.contains_iff_mem] at h
      rcases h with ((h | h) | h) | h <;> exact ⟨_, h, by decide⟩
    obtain ⟨s, hs, hpos⟩ := hmem
    have hle := rank_le_effectiveScope hs
    cases he : effectiveScope u key with
    | none =>
      rw [he] at hle
      exact absurd (Nat.lt_of_lt_of_le hpos hle) (Nat.lt_irrefl 0)
    | some s => rfl
  · intro h
    obtain ⟨s, hs⟩ := Option.isSome_iff_exists.mp h
    obtain ⟨hm, hk⟩ := effectiveScope_held hs
    simp only [holdsAny_eq, grants, Bool.or_eq_true, List.contains_iff_mem]
    cases s with
    | own => exact Or.inr hm
    | department => exact Or.inl (Or.inr hm)
    | company => exact Or.inl (Or.inl (Or.inr hm))
    | global => exact Or.inl (Or.inl (Or.inl hm))
    | other t => cases hk

theorem mem_getEffectivePermissions :
    (key, s) ∈ getEffectivePermissions u ↔ effectiveScope u key = some s := by
  simp only [getEffectivePermissions, List.mem_filterMap, Option.map_eq_some_iff, Prod.mk.injEq]
  constructor
  · rintro ⟨_, -, _, h, rfl, rfl⟩
    exact h
  · exact fun h => ⟨key, key.mem_sorted, s, h, rfl, rfl⟩

theorem payload_departments_perm (u : User) :
    (authorizationPayload u).departments.Perm (u.departments.map fun d => (d.id, d.name)) :=
  List.perm_insertionSort _ _

section EqualPayloads

variable {u v : User} (h : authorizationPayload u = authorizationPayload v)

include h

theorem id_eq_of_payload : u.id = v.id := congrArg Payload.userId h

theorem company_eq_of_payload : u.companyDomain = v.companyDomain :=
  congrArg Payload.companyDomain h

/-- Users with one payload have one effective scope. -/
theorem effectiveScope_eq_of_payload (key : PermissionKey) :
    effectiveScope u key = effectiveScope v key := by
  have hp : getEffectivePermissions u = getEffectivePermissions v := congrArg Payload.permissions h
  exact Option.ext fun s => by
    rw [← mem_getEffectivePermissions, ← mem_getEffectivePermissions, hp]

theorem grants_global_eq_of_payload (key : PermissionKey) :
    grants u key .global = grants v key .global := by
  rw [Bool.eq_iff_iff, grants_global_iff_effective, grants_global_iff_effective,
    effectiveScope_eq_of_payload h]

theorem holdsAny_eq_of_payload (key : PermissionKey) : holdsAny u key = holdsAny v key := by
  rw [Bool.eq_iff_iff, holdsAny_iff_effective, holdsAny_iff_effective,
    effectiveScope_eq_of_payload h]

theorem departmentIds_of_payload (i : Id) :
    i ∈ u.departments.map (·.id) ↔ i ∈ v.departments.map (·.id) := by
  have hu := payload_departments_perm u
  rw [h] at hu
  have hids := (hu.symm.trans (payload_departments_perm v)).map Prod.fst
  simp only [List.map_map] at hids
  exact hids.mem_iff

end EqualPayloads

end QnscKb.Access
