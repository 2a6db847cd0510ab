import QnscKb.Users.Bootstrap

/-!
# Users — Holdings

What the accounts hold of the departments, and the checks `src/api/routers/auth.py` makes of it.
-/

namespace QnscKb.Users
open Access Rows

/-! ### Holdings -/

/-- What an account holds of the departments. -/
structure Holding where
  id : Id
  active : Bool
  departmentIds : List Id
  ownerships : List Ownership
  deriving DecidableEq

def Account.holding (account : Account) : Holding :=
  ⟨account.id, account.active, account.departmentIds, account.ownerships⟩

def Owns (ownerships : List Ownership) (id : Id) : Prop :=
  ∃ o ∈ ownerships, o.departmentId = id ∧ o.active = true

instance (ownerships : List Ownership) (id : Id) : Decidable (Owns ownerships id) :=
  inferInstanceAs (Decidable (∃ o ∈ ownerships, _))

/-- Owners are members, and an active department has one active owner at most. -/
structure Ordered (active : List Id) (holdings : List Holding) : Prop where
  members : ∀ h ∈ holdings, ∀ id, Owns h.ownerships id → id ∈ h.departmentIds
  single : ∀ id ∈ active, ∀ g ∈ holdings, ∀ h ∈ holdings, g.active = true → h.active = true →
    Owns g.ownerships id → Owns h.ownerships id → g.id = h.id

/-- No other active account owns what this one, when active, owns. -/
def Unrivalled (active : List Id) (holdings : List Holding) (h : Holding) : Prop :=
  h.active = true → ∀ id ∈ active, Owns h.ownerships id → ∀ g ∈ holdings, g.id ≠ h.id →
    g.active = true → ¬ Owns g.ownerships id

/-- A holding among the others. -/
structure Fits (active : List Id) (holdings : List Holding) (h : Holding) : Prop where
  members : ∀ id, Owns h.ownerships id → id ∈ h.departmentIds
  single : Unrivalled active holdings h

variable {active : List Id} {held : List Holding} {new : Holding}

theorem fits_iff_members (hrivals : ∀ id ∈ active, Owns new.ownerships id → ∀ g ∈ held,
    g.id ≠ new.id → g.active = true → ¬ Owns g.ownerships id) :
    Fits active held new ↔ ∀ id, Owns new.ownerships id → id ∈ new.departmentIds :=
  ⟨fun hf => hf.members, fun hm => ⟨hm, fun _ => hrivals⟩⟩

theorem ordered_with_iff (ho : Ordered active held) {held' : List Holding}
    (hmem : ∀ g, g ∈ held' ↔ g = new ∨ g ∈ held ∧ g.id ≠ new.id) :
    Ordered active held' ↔ Fits active held new := by
  have hnew : new ∈ held' := (hmem new).mpr (Or.inl rfl)
  constructor
  · intro h
    refine ⟨h.members new hnew, fun hact id hid hown g hg hne hgact hgown => hne ?_⟩
    exact h.single id hid g ((hmem g).mpr (Or.inr ⟨hg, hne⟩)) new hnew hgact hact hgown hown
  · intro hf
    constructor
    · intro g hg
      rcases (hmem g).mp hg with heq | ⟨hg, -⟩
      · exact heq ▸ hf.members
      · exact ho.members g hg
    · intro id hid g hg h hh hgact hhact hgown hhown
      rcases (hmem g).mp hg with hgeq | ⟨hg, hgne⟩
      · rcases (hmem h).mp hh with hheq | ⟨hh, hhne⟩
        · rw [hgeq, hheq]
        · rw [hgeq] at hgact hgown
          exact absurd hhown (hf.single hgact id hid hgown h hh hhne hhact)
      · rcases (hmem h).mp hh with hheq | ⟨hh, -⟩
        · rw [hheq] at hhact hhown
          exact absurd hgown (hf.single hhact id hid hhown g hg hgne hgact)
        · exact ho.single id hid g hg h hh hgact hhact hgown hhown

/-- An account's part in the order of the owners, where it is replaced. -/
theorem ordered_replace_iff (ho : Ordered active held) {old : Holding} (hold : old ∈ held)
    (hid : old.id = new.id) :
    Ordered active (held.map fun h => if h.id == new.id then new else h) ↔
      Fits active held new := by
  refine ordered_with_iff ho fun g => ?_
  rw [List.mem_map]
  constructor
  · rintro ⟨h, hh, rfl⟩
    split
    · exact Or.inl rfl
    · rename_i hne
      exact Or.inr ⟨hh, by simpa using hne⟩
  · rintro (rfl | ⟨hg, hne⟩)
    · exact ⟨old, hold, if_pos (by simpa using hid)⟩
    · exact ⟨g, hg, if_neg (by simpa using hne)⟩

/-- A new account's part in it. -/
theorem ordered_append_iff (ho : Ordered active held) (hid : ∀ h ∈ held, h.id ≠ new.id) :
    Ordered active (held ++ [new]) ↔ Fits active held new := by
  refine ordered_with_iff ho fun g => ?_
  rw [List.mem_append, List.mem_singleton]
  constructor
  · rintro (hg | rfl)
    · exact Or.inr ⟨hg, hid g hg⟩
    · exact Or.inl rfl
  · rintro (rfl | ⟨hg, -⟩)
    · exact Or.inr rfl
    · exact Or.inl hg

/-! ### What the checks say -/

theorem owns_apply {ownerships : List Ownership} {departments : List Department} {id : Id} :
    Owns (applyDepartmentOwnership ownerships departments) id ↔
      ∃ row ∈ departments, row.id = id := by
  constructor
  · rintro ⟨o, ho, hid, hact⟩
    rcases List.mem_append.mp ho with ho | ho
    · obtain ⟨old, -, rfl⟩ := List.mem_map.mp ho
      obtain ⟨row, hrow, heq⟩ := List.any_eq_true.mp hact
      exact ⟨row, hrow, (beq_iff_eq.mp heq).trans hid⟩
    · obtain ⟨row, hrow, rfl⟩ := List.mem_map.mp ho
      exact ⟨row, List.mem_of_mem_filter hrow, hid⟩
  · rintro ⟨row, hrow, rfl⟩
    by_cases hold : ownerships.any fun o => o.departmentId == row.id
    · obtain ⟨o, ho, heq⟩ := List.any_eq_true.mp hold
      have hid : o.departmentId = row.id := beq_iff_eq.mp heq
      refine ⟨_, List.mem_append_left _ (List.mem_map_of_mem ho), hid, ?_⟩
      exact List.any_eq_true.mpr ⟨row, hrow, by simp [hid]⟩
    · refine ⟨⟨row.id, true⟩, List.mem_append_right _ (List.mem_map.mpr ⟨row, ?_, rfl⟩), rfl, rfl⟩
      exact List.mem_filter.mpr ⟨hrow, by simpa using hold⟩

namespace Tables

variable {S : Settings} {t t' : Tables}

def holdings (t : Tables) : List Holding := t.accounts.map Account.holding

def activeIds (t : Tables) : List Id := (t.departments.filter (·.active)).map (·.id)

variable {id : Id}

theorem mem_activeIds :
    id ∈ t.activeIds ↔ ∃ row ∈ t.departments, row.active = true ∧ row.id = id := by
  simp [activeIds, and_assoc]

theorem haveSingleOwner_iff {userId : Option Id} {departments : List Department} :
    t.haveSingleOwner userId departments = true ↔
      ∀ h ∈ t.holdings, some h.id ≠ userId → h.active = true → ∀ row ∈ departments,
        ¬ Owns h.ownerships row.id := by
  simp only [haveSingleOwner, holdings, Bool.not_eq_true', List.any_eq_false, Bool.and_eq_true,
    bne_iff_ne, List.any_eq_true, beq_iff_eq, List.forall_mem_map, Account.holding, Owns]
  constructor
  · rintro h account haccount hne hact row hrow ⟨o, ho, hid, hoact⟩
    exact h account haccount ⟨⟨hne, hact⟩, o, ho, hoact, row, hrow, hid.symm⟩
  · rintro h account haccount ⟨⟨hne, hact⟩, o, ho, hoact, row, hrow, hid⟩
    exact h account haccount hne hact row hrow ⟨o, ho, hid.symm, hoact⟩

variable {row : Department}

theorem mem_activelyOwned (hd : Supplied Department.id t.departments t.fresh) {account : Account} :
    row ∈ t.activelyOwned account ↔
      row ∈ t.departments ∧ row.active = true ∧ Owns account.ownerships row.id := by
  simp only [activelyOwned, List.mem_filterMap, Option.filter_eq_some_iff, Bool.and_eq_true]
  constructor
  · rintro ⟨o, ho, hget, hoact, hact⟩
    exact ⟨mem_of_get hget, hact, o, ho, (key_of_get hget).symm, hoact⟩
  · rintro ⟨hrow, hact, o, ho, hid, hoact⟩
    refine ⟨o, ho, ?_, hoact, hact⟩
    rw [hid]
    exact Where.find?_key hd.nodup hrow

/-! ### What a request resolves -/

variable {company : String}

variable {ids : List Id}

theorem mem_activeDepartments {found : List Department}
    (h : t.activeDepartments company ids = some found) :
    row ∈ found ↔
      row ∈ t.departments ∧ row.id ∈ ids ∧ row.companyDomain = company ∧ row.active = true := by
  simp only [activeDepartments] at h
  split at h
  · cases h
    simp [and_assoc]
  · cases h

theorem mem_distinct : id ∈ distinct ids ↔ id ∈ ids := by
  simp [distinct]

theorem mem_resolveOwned {ids : Option (List Id)} {owned : List Department}
    (h : t.resolveOwnedDepartments company ids = some owned) :
    row ∈ owned ↔ row ∈ t.departments ∧ row.id ∈ ids.getD [] ∧ row.companyDomain = company ∧
      row.active = true := by
  unfold resolveOwnedDepartments at h
  cases hids : ids.getD [] with
  | nil =>
    rw [hids] at h
    cases h
    simp
  | cons id ids =>
    rw [hids] at h
    rw [mem_activeDepartments h, mem_distinct]

theorem resolveActive_active {name : Option String} {found : Option Department}
    (h : t.resolveActiveDepartment S company name = some found) (hrow : row ∈ found) :
    row ∈ t.departments ∧ row.active = true := by
  unfold resolveActiveDepartment at h
  split at h
  · cases h
    cases hrow
  · obtain ⟨other, hfind, rfl⟩ := Option.map_eq_some_iff.mp h
    obtain rfl := Option.mem_some_iff.mp hrow
    have hp := List.find?_some hfind
    simp only [Bool.and_eq_true] at hp
    exact ⟨List.mem_of_find?_eq_some hfind, hp.1.2⟩

theorem resolveMembership_active {ids : Option (List Id)} {name : Option String}
    {memberships : List Department}
    (h : t.resolveMembershipDepartments S company ids name = some memberships)
    (hrow : row ∈ memberships) : row ∈ t.departments ∧ row.active = true := by
  unfold resolveMembershipDepartments at h
  split at h
  · obtain ⟨found, hfound, rfl⟩ := Option.map_eq_some_iff.mp h
    exact resolveActive_active hfound (Option.mem_toList.mp hrow)
  · cases h
    cases hrow
  · obtain ⟨found, hfound, rfl⟩ := Option.map_eq_some_iff.mp h
    obtain ⟨id, -, hget⟩ := List.mem_filterMap.mp hrow
    obtain ⟨hmem, -, -, hact⟩ := (mem_activeDepartments hfound).mp (mem_of_get hget)
    exact ⟨hmem, hact⟩

/-! ### The parts of an update -/

def Listed (t : Tables) (company : String) (ids : List Id) (row : Department) : Prop :=
  row ∈ t.departments ∧ row.id ∈ ids ∧ row.companyDomain = company ∧ row.active = true

variable {input : ManagedUserUpdate} {actor account account' : Account}
  {memberships : Option (List Department)}

theorem assignMemberships_spec
    (h : t.assignMemberships S input account = some (account', memberships)) :
    (input.dept = none ∧ input.departmentIds = none ∧ account' = account ∧ memberships = none) ∨
    (¬ (input.dept = none ∧ input.departmentIds = none) ∧
      ∃ l dept, account' = account.member l dept ∧ memberships = some l ∧
        ∀ row ∈ l, row ∈ t.departments ∧ row.active = true) := by
  unfold assignMemberships at h
  split at h
  · rename_i hdept
    simp only [Option.bind_eq_bind, Option.bind_eq_some_iff, Option.guard_eq_some',
      exists_const] at h
    obtain ⟨l, hl, primary, -, -, heq⟩ := h
    cases heq
    exact Or.inr ⟨by simp [hdept], l, _, rfl, rfl, fun row => resolveMembership_active hl⟩
  · rename_i hids
    obtain ⟨l, hl, heq⟩ := Option.bind_eq_some_iff.mp h
    cases heq
    exact Or.inr ⟨by simp [hids], l, _, rfl, rfl, fun row => resolveMembership_active hl⟩
  · rename_i hdept hids
    cases h
    exact Or.inl ⟨hdept, hids, rfl, rfl⟩

theorem assignPrimaryRole_holding
    (hprimary : t.assignPrimaryRole actor input account = some account') :
    account'.holding = account.holding ∧ account'.companyDomain = account.companyDomain := by
  unfold assignPrimaryRole at hprimary
  split at hprimary
  · cases hprimary
    exact ⟨rfl, rfl⟩
  · simp only [Option.bind_eq_bind, Option.bind_eq_some_iff, Option.guard_eq_some',
      exists_const] at hprimary
    obtain ⟨-, -, h⟩ := hprimary
    split at h
    · obtain ⟨row, -, rfl⟩ := Option.map_eq_some_iff.mp h
      exact ⟨rfl, rfl⟩
    · cases h
      exact ⟨rfl, rfl⟩

theorem assignRoles_holding (h : t.assignRoles S actor input account = some account') :
    account'.holding = account.holding ∧ account'.companyDomain = account.companyDomain := by
  unfold assignRoles at h
  split at h
  · cases h
    exact ⟨rfl, rfl⟩
  · simp only [Option.bind_eq_bind, Option.bind_eq_some_iff, Option.guard_eq_some',
      exists_const] at h
    obtain ⟨-, -, -, -, h⟩ := h
    cases h
    exact ⟨rfl, rfl⟩

theorem assignEmail_holding (h : t.assignEmail S actor input account = some account') :
    account'.holding = account.holding := by
  unfold assignEmail at h
  split at h
  · cases h
    rfl
  · simp only [Option.bind_eq_bind, Option.bind_eq_some_iff, Option.guard_eq_some',
      exists_const] at h
    obtain ⟨-, -, -, -, h⟩ := h
    cases h
    rfl

theorem assignActive_holding (h : t.assignActive actor input account = some account') :
    account'.holding = { account.holding with active := account'.active } := by
  unfold assignActive at h
  split at h
  · cases h
    rfl
  · cases h
    rfl
  · simp only [Option.bind_eq_bind, Option.bind_eq_some_iff, Option.guard_eq_some',
      exists_const] at h
    obtain ⟨-, -, h⟩ := h
    cases h
    rfl

theorem any_member_iff {l : List Department} :
    (l.any fun member => member.id == row.id) = true ↔ row.id ∈ l.map (·.id) := by
  simp

theorem members_cases (owned l : List Department) :
    let kept := owned.filter fun row => l.any fun member => member.id == row.id
    (∀ row ∈ kept, row ∈ owned ∧ row.id ∈ l.map (·.id)) ∧
      (kept.length = owned.length → kept = owned) ∧
      (kept.length ≠ owned.length → ∃ row ∈ owned, row.id ∉ l.map (·.id)) := by
  refine ⟨fun row hrow => ?_, fun hlength => ?_, fun hlength => ?_⟩
  · exact ⟨List.mem_of_mem_filter hrow, any_member_iff.mp (List.mem_filter.mp hrow).2⟩
  · exact List.filter_eq_self.mpr (List.length_filter_eq_length_iff.mp hlength)
  · have hsome := mt List.length_filter_eq_length_iff.mpr hlength
    simp only [not_forall] at hsome
    obtain ⟨row, hrow, hout⟩ := hsome
    exact ⟨row, hrow, mt any_member_iff.mpr hout⟩

theorem assignOwnership_spec (h : t.assignOwnership input account memberships = some account') :
    ∃ owned, t.haveSingleOwner (some account.id) owned = true ∧
      ((∃ ids, input.ownedDepartmentIds = some ids ∧ account' = account.owner owned ∧
          (∀ row, row ∈ owned ↔ t.Listed account.companyDomain ids row) ∧
          ∀ l, memberships = some l → ∀ row ∈ owned, row.id ∈ l.map (·.id)) ∨
        (input.ownedDepartmentIds = none ∧ account' = account ∧ owned = t.activelyOwned account ∧
          ∀ l, memberships = some l → ∀ row ∈ owned, row.id ∈ l.map (·.id)) ∨
        ∃ l, input.ownedDepartmentIds = none ∧ memberships = some l ∧
          account' = account.owner owned ∧
          (∀ row ∈ owned, row ∈ t.activelyOwned account ∧ row.id ∈ l.map (·.id)) ∧
          ∃ row ∈ t.activelyOwned account, row.id ∉ l.map (·.id)) := by
  simp only [assignOwnership, Option.bind_eq_bind, Option.bind_eq_some_iff,
    Option.guard_eq_some', exists_const] at h
  obtain ⟨owned, howned, ⟨b, retained⟩, hrec, hsingle, heq⟩ := h
  cases hids : input.ownedDepartmentIds with
  | some ids =>
    simp only [ownedAfter, hids] at howned
    have hlisted : ∀ row, row ∈ owned ↔ t.Listed account.companyDomain ids row :=
      fun row => mem_resolveOwned howned
    simp only [hids, Option.isSome_some] at hrec heq
    cases memberships with
    | none =>
      cases hrec
      cases heq
      exact ⟨owned, hsingle, Or.inl ⟨ids, rfl, rfl, hlisted, fun l hl => by cases hl⟩⟩
    | some l =>
      simp only [reconcile, if_true] at hrec
      split at hrec
      · rename_i hsub
        cases hrec
        cases heq
        refine ⟨owned, hsingle, Or.inl ⟨ids, rfl, rfl, hlisted, ?_⟩⟩
        intro l' hl row hrow
        cases hl
        exact any_member_iff.mp (List.all_eq_true.mp hsub row hrow)
      · cases hrec
  | none =>
    simp only [ownedAfter, hids, Option.some.injEq] at howned
    subst howned
    simp only [hids] at hrec heq
    cases memberships with
    | none =>
      cases hrec
      cases heq
      exact ⟨_, hsingle, Or.inr (Or.inl ⟨rfl, rfl, rfl, fun l hl => by cases hl⟩)⟩
    | some l =>
      obtain ⟨rfl, rfl⟩ := hrec
      cases heq
      obtain ⟨hretained, hall, hsome⟩ := members_cases (t.activelyOwned account) l
      split at hsingle
      · rename_i hlength
        refine ⟨_, hsingle, Or.inr (Or.inl ⟨rfl, if_pos hlength, hall hlength, ?_⟩)⟩
        intro l' hl row hrow
        cases hl
        exact (hretained row hrow).2
      · rename_i hlength
        exact ⟨_, hsingle, Or.inr (Or.inr ⟨l, rfl, rfl, if_neg hlength, hretained,
          hsome hlength⟩)⟩

/-! ### The tables -/

/-- Primary keys come from the supply, and what an ownership refers to was given out by it. -/
structure Keyed (t : Tables) : Prop where
  accounts : Supplied Account.id t.accounts t.fresh
  departments : Supplied Department.id t.departments t.fresh
  owned : ∀ h ∈ t.holdings, ∀ o ∈ h.ownerships, o.departmentId < t.fresh

/-- Owners are members, and an active department has one active owner at most. -/
def WellOwned (t : Tables) : Prop := Ordered t.activeIds t.holdings

theorem wellOwned_setAccount_iff (ho : t.WellOwned) {old : Account}
    (hget : Rows.get Account.id id t.accounts = some old) (hid : account.id = id) :
    (t.setAccount id fun _ => account).WellOwned ↔
      Fits t.activeIds t.holdings account.holding := by
  have hholdings : (t.setAccount id fun _ => account).holdings =
      t.holdings.map fun h => if h.id == account.holding.id then account.holding else h := by
    simp only [holdings, setAccount, update, List.map_map]
    refine List.map_congr_left fun a _ => ?_
    by_cases hc : a.id = id
    · simp [Account.holding, hid, hc]
    · simp [Account.holding, hid, hc]
  rw [WellOwned, hholdings]
  exact ordered_replace_iff ho (List.mem_map_of_mem (mem_of_get hget))
    ((key_of_get hget).trans hid.symm)

theorem apply_below (hd : Supplied Department.id t.departments t.fresh)
    {ownerships : List Ownership} (hold : ∀ o ∈ ownerships, o.departmentId < t.fresh)
    {departments : List Department} (hrows : ∀ row ∈ departments, row ∈ t.departments) :
    ∀ o ∈ applyDepartmentOwnership ownerships departments, o.departmentId < t.fresh := by
  intro o ho
  rcases List.mem_append.mp ho with ho | ho
  · obtain ⟨old, hmem, rfl⟩ := List.mem_map.mp ho
    exact hold old hmem
  · obtain ⟨row, hrow, rfl⟩ := List.mem_map.mp ho
    exact hd.below row (hrows row (List.mem_of_mem_filter hrow))

theorem assignOwnership_below (hk : t.Keyed)
    (hold : ∀ o ∈ account.ownerships, o.departmentId < t.fresh)
    (h : t.assignOwnership input account memberships = some account') :
    ∀ o ∈ account'.ownerships, o.departmentId < t.fresh := by
  obtain ⟨owned, -, hcases⟩ := assignOwnership_spec h
  rcases hcases with ⟨ids, -, rfl, hlisted, -⟩ | ⟨-, rfl, -⟩ | ⟨l, -, -, rfl, hsub, -⟩
  · exact apply_below hk.departments hold fun row hrow => ((hlisted row).mp hrow).1
  · exact hold
  · exact apply_below hk.departments hold fun row hrow =>
    ((mem_activelyOwned hk.departments).mp (hsub row hrow).1).1

/-- When an update leaves the owners in order. -/
def UpdateRespects (S : Settings) (t : Tables) (input : ManagedUserUpdate) (account : Account) :
    Prop :=
  (input.dept = none → input.departmentIds = none → ∀ ids, input.ownedDepartmentIds = some ids →
    ∀ row, t.Listed account.companyDomain ids row → row.id ∈ account.departmentIds) ∧
  (input.ownedDepartmentIds = none → ∀ account' l,
    t.assignMemberships S input account = some (account', some l) →
      (∀ id, Owns account.ownerships id → id ∈ t.activeIds) ∨
        ∃ id ∈ t.activeIds, Owns account.ownerships id ∧ id ∉ l.map (·.id))

/-- What a part of an update that is past the memberships sees of them. -/
structure Placed (account a₁ a₂ : Account) : Prop where
  id : a₂.id = account.id
  ownerships : a₂.ownerships = account.ownerships
  departmentIds : a₂.departmentIds = a₁.departmentIds
  companyDomain : a₂.companyDomain = account.companyDomain

variable {a₁ a₂ : Account}

theorem placed_of_holding (h₁ : t.assignMemberships S input account = some (a₁, memberships))
    (h₂ : a₂.holding = a₁.holding ∧ a₂.companyDomain = a₁.companyDomain) :
    Placed account a₁ a₂ := by
  obtain ⟨hh, hcompany⟩ := h₂
  rcases assignMemberships_spec h₁ with ⟨-, -, rfl, -⟩ | ⟨-, l, dept, rfl, -⟩
  · exact ⟨congrArg Holding.id hh, congrArg Holding.ownerships hh,
      congrArg Holding.departmentIds hh, hcompany⟩
  · exact ⟨congrArg Holding.id hh, congrArg Holding.ownerships hh,
      congrArg Holding.departmentIds hh, hcompany⟩

theorem owned_active_iff (hd : Supplied Department.id t.departments t.fresh) {a : Account}
    (heq : a.ownerships = account.ownerships) :
    (∃ row ∈ t.activelyOwned a, row.id = id) ↔ id ∈ t.activeIds ∧ Owns account.ownerships id := by
  simp only [mem_activelyOwned hd, heq, mem_activeIds]
  constructor
  · rintro ⟨row, ⟨hrow, hact, hrowns⟩, rfl⟩
    exact ⟨⟨row, hrow, hact, rfl⟩, hrowns⟩
  · rintro ⟨⟨row, hrow, hact, rfl⟩, hrowns⟩
    exact ⟨row, ⟨hrow, hact, hrowns⟩, rfl⟩

theorem update_unrivalled (hd : Supplied Department.id t.departments t.fresh) {a₃ : Account}
    (h₃ : t.assignOwnership input a₂ memberships = some a₃) :
    a₃.id = a₂.id ∧ ∀ id ∈ t.activeIds, Owns a₃.ownerships id → ∀ g ∈ t.holdings,
      g.id ≠ a₃.id → g.active = true → ¬ Owns g.ownerships id := by
  obtain ⟨owned, hsingle, hcases⟩ := assignOwnership_spec h₃
  have hrivals : ∀ id, (∃ row ∈ owned, row.id = id) → ∀ g ∈ t.holdings, g.id ≠ a₂.id →
      g.active = true → ¬ Owns g.ownerships id := by
    rintro id ⟨row, hrow, rfl⟩ g hg hne hact
    exact haveSingleOwner_iff.mp hsingle g hg (by simpa using hne) hact row hrow
  rcases hcases with ⟨ids, -, rfl, -⟩ | ⟨-, rfl, rfl, -⟩ | ⟨l, -, -, rfl, -⟩
  · exact ⟨rfl, fun id _ hid => hrivals id (owns_apply.mp hid)⟩
  · exact ⟨rfl, fun id hact hid => hrivals id ((owned_active_iff hd rfl).mpr ⟨hact, hid⟩)⟩
  · exact ⟨rfl, fun id _ hid => hrivals id (owns_apply.mp hid)⟩

theorem update_members_given {owned : List Department}
    (h₁ : t.assignMemberships S input account = some (a₁, memberships)) (h₂ : Placed account a₁ a₂)
    (hids : input.ownedDepartmentIds = some ids)
    (hlisted : ∀ row, row ∈ owned ↔ t.Listed a₂.companyDomain ids row)
    (hsub : ∀ l, memberships = some l → ∀ row ∈ owned, row.id ∈ l.map (·.id)) :
    (∀ id, Owns (a₂.owner owned).ownerships id → id ∈ (a₂.owner owned).departmentIds) ↔
      t.UpdateRespects S input account := by
  have hiff : (∀ id, Owns (a₂.owner owned).ownerships id → id ∈ (a₂.owner owned).departmentIds) ↔
      ∀ row ∈ owned, row.id ∈ a₁.departmentIds := by
    rw [← h₂.departmentIds]
    constructor
    · exact fun hall row hrow => hall row.id (owns_apply.mpr ⟨row, hrow, rfl⟩)
    · intro hall id hid
      obtain ⟨row, hrow, rfl⟩ := owns_apply.mp hid
      exact hall row hrow
  rw [hiff, UpdateRespects, ← h₂.companyDomain]
  rcases assignMemberships_spec h₁ with ⟨hdept, hdids, rfl, rfl⟩ | ⟨hgiven, l, dept, rfl, rfl, -⟩
  · constructor
    · intro hall
      refine ⟨fun _ _ ids' hids' row hrow => ?_, fun hnone => absurd hnone (by simp [hids])⟩
      rw [hids] at hids'
      cases hids'
      exact hall row ((hlisted row).mpr hrow)
    · rintro ⟨hall, -⟩ row hrow
      exact hall hdept hdids ids hids row ((hlisted row).mp hrow)
  · refine iff_of_true (fun row hrow => hsub l rfl row hrow) ⟨?_, ?_⟩
    · exact fun hdept hdids => absurd ⟨hdept, hdids⟩ hgiven
    · exact fun hnone => absurd hnone (by simp [hids])

theorem update_members_kept (hk : t.Keyed)
    (hmembers : ∀ id, Owns account.ownerships id → id ∈ account.departmentIds)
    (h₁ : t.assignMemberships S input account = some (a₁, memberships)) (h₂ : Placed account a₁ a₂)
    (hids : input.ownedDepartmentIds = none)
    (hsub : ∀ l, memberships = some l → ∀ row ∈ t.activelyOwned a₂, row.id ∈ l.map (·.id)) :
    (∀ id, Owns a₂.ownerships id → id ∈ a₂.departmentIds) ↔ t.UpdateRespects S input account := by
  rw [h₂.ownerships, h₂.departmentIds]
  rcases assignMemberships_spec h₁ with ⟨hdept, hdids, rfl, rfl⟩ | ⟨hgiven, l, dept, rfl, rfl, hl⟩
  · refine iff_of_true hmembers ⟨?_, ?_⟩
    · exact fun _ _ ids hsome => absurd hsome (by simp [hids])
    · intro _ account' l hassign
      rw [h₁] at hassign
      cases hassign
  · constructor
    · intro hall
      refine ⟨fun hdept hdids => absurd ⟨hdept, hdids⟩ hgiven, fun _ account' l' hassign => ?_⟩
      rw [h₁] at hassign
      cases hassign
      refine Or.inl fun id hid => ?_
      obtain ⟨row, hrow, rfl⟩ := List.mem_map.mp (hall id hid)
      exact mem_activeIds.mpr ⟨row, (hl row hrow).1, (hl row hrow).2, rfl⟩
    · rintro ⟨-, hor⟩ id hid
      have howned := fun id' (hact : id' ∈ t.activeIds) (hown : Owns account.ownerships id') =>
        (owned_active_iff hk.departments h₂.ownerships).mpr ⟨hact, hown⟩
      rcases hor hids _ l h₁ with hall | ⟨id', hact, hown, hout⟩
      · obtain ⟨row, hrow, rfl⟩ := howned id (hall id hid) hid
        exact hsub l rfl row hrow
      · obtain ⟨row, hrow, rfl⟩ := howned id' hact hown
        exact absurd (hsub l rfl row hrow) hout

theorem update_members_iff (hk : t.Keyed)
    (hmembers : ∀ id, Owns account.ownerships id → id ∈ account.departmentIds) {a₃ : Account}
    (h₁ : t.assignMemberships S input account = some (a₁, memberships)) (h₂ : Placed account a₁ a₂)
    (h₃ : t.assignOwnership input a₂ memberships = some a₃) :
    (∀ id, Owns a₃.ownerships id → id ∈ a₃.departmentIds) ↔ t.UpdateRespects S input account := by
  obtain ⟨owned, -, hcases⟩ := assignOwnership_spec h₃
  rcases hcases with ⟨ids, hids, rfl, hlisted, hsub⟩ | ⟨hids, rfl, rfl, hsub⟩ |
    ⟨l, hids, hl, rfl, hsub, row, hrow, hout⟩
  · exact update_members_given h₁ h₂ hids hlisted hsub
  · exact update_members_kept hk hmembers h₁ h₂ hids hsub
  · -- The owned departments that are left out are given up.
    rcases assignMemberships_spec h₁ with ⟨-, -, -, hnone⟩ | ⟨hgiven, l', dept, rfl, hl', -⟩
    · rw [hl] at hnone
      cases hnone
    rw [hl] at hl'
    cases hl'
    refine iff_of_true (fun id hid => ?_) ⟨?_, ?_⟩
    · obtain ⟨row, hrow, rfl⟩ := owns_apply.mp hid
      rw [show (a₂.owner owned).departmentIds = _ from h₂.departmentIds]
      exact (hsub row hrow).2
    · exact fun hdept hdids => absurd ⟨hdept, hdids⟩ hgiven
    · intro _ account' l' hassign
      rw [h₁, hl] at hassign
      cases hassign
      obtain ⟨hact, hown⟩ :=
        (owned_active_iff hk.departments h₂.ownerships).mp ⟨row, hrow, rfl⟩
      exact Or.inr ⟨row.id, hact, hown, hout⟩

/-- **An update** leaves the owners in order exactly when it respects them. -/
theorem updateManagedUser_step (hk : t.Keyed) (ho : t.WellOwned) {actorId target : Id}
    (h : t.updateManagedUser S actorId target input = some t') :
    ∃ account, Rows.get Account.id target t.accounts = some account ∧
      (∃ a, a.id = target ∧ (∀ o ∈ a.ownerships, o.departmentId < t.fresh) ∧
        t' = t.setAccount target fun _ => a) ∧
      (t'.WellOwned ↔ t.UpdateRespects S input account) := by
  simp only [updateManagedUser, Option.bind_eq_bind, Option.bind_eq_some_iff,
    Option.guard_eq_some', exists_const] at h
  obtain ⟨actor, -, -, account, hvisible, -, -, ⟨a₁, memberships⟩, h₁, b, hb, a₂, h₂, a₃, h₃, c, hc,
    d, hd, heq⟩ := h
  cases heq
  have hget : Rows.get Account.id target t.accounts = some account :=
    (Option.filter_eq_some_iff.mp hvisible).1
  obtain ⟨hbh, hbc⟩ := assignPrimaryRole_holding hb
  obtain ⟨hah, hac⟩ := assignRoles_holding h₂
  have hplaced := placed_of_holding h₁ ⟨hah.trans hbh, hac.trans hbc⟩
  obtain ⟨hid₃, hrivals⟩ := update_unrivalled hk.departments h₃
  have hholding : (d.withPassword input.password).holding =
      { a₃.holding with active := d.active } := by
    rw [← assignEmail_holding hc, ← assignActive_holding hd]
    rfl
  have hid : (d.withPassword input.password).id = target :=
    (congrArg Holding.id hholding).trans (hid₃.trans (hplaced.id.trans (key_of_get hget)))
  refine ⟨account, hget, ⟨d.withPassword input.password, hid, ?_, rfl⟩, ?_⟩
  · rw [show (d.withPassword input.password).ownerships = a₃.ownerships from
      congrArg Holding.ownerships hholding]
    exact assignOwnership_below hk (hplaced.ownerships ▸
      hk.owned account.holding (List.mem_map_of_mem (mem_of_get hget))) h₃
  · rw [wellOwned_setAccount_iff ho hget hid, hholding, fits_iff_members hrivals]
    exact update_members_iff hk
      (ho.members account.holding (List.mem_map_of_mem (mem_of_get hget))) h₁ hplaced h₃

end Tables

end QnscKb.Users
