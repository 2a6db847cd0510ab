import QnscKb.Lib.Runs
import QnscKb.Users.Holdings

/-!
# Users — Ownership

Who owns the departments, over the runs of the requests of `src/api/routers/auth.py`.
-/

namespace QnscKb.Users
open Access Rows Runs

namespace Tables

variable {S : Settings} {t t' : Tables}

/-- What an account holds is not read off its roles. -/
def RolelessHolding (f : Account → Account) : Prop :=
  ∀ account ids, (f { account with roleIds := ids }).holding = (f account).holding

variable {f : Account → Account}

theorem added_holdings (hk : t.Keyed) {new : Account} (hid : new.id = t.fresh)
    (hf : RolelessHolding f) :
    ((t.addAccount new).bootstrapRbac.setAccount t.fresh f).holdings =
      t.holdings ++ [(f new).holding] := by
  have hroleless : Roleless fun account : Account =>
      if account.id == t.fresh then (f account).holding else account.holding := by
    intro account ids
    simp only
    rw [hf account ids]
    rfl
  have hmap : ((t.addAccount new).bootstrapRbac.setAccount t.fresh f).holdings =
      (t.addAccount new).bootstrapRbac.accounts.map fun account =>
        if account.id == t.fresh then (f account).holding else account.holding := by
    simp only [holdings, setAccount, update, List.map_map]
    refine List.map_congr_left fun a _ => ?_
    by_cases hc : a.id = t.fresh
    · simp [hc]
    · simp [hc]
  rw [hmap, (t.addAccount new).bootstrap_frame.accounts hroleless]
  simp only [addAccount, List.map_append, List.map_cons, List.map_nil, hid, beq_self_eq_true,
    if_true, holdings]
  refine congrArg (· ++ [(f new).holding]) (List.map_congr_left fun a ha => ?_)
  have hne : a.id ≠ t.fresh := Nat.ne_of_lt (hk.accounts.below a ha)
  simp [hne]

/-! ### Keys -/

theorem supplied_holdings {n : Nat} :
    Supplied Holding.id t.holdings n ↔ Supplied Account.id t.accounts n := by
  have hmap : t.holdings.map Holding.id = t.accounts.map Account.id := List.map_map
  constructor
  · intro h
    exact ⟨hmap ▸ h.nodup, fun a ha => h.below a.holding (List.mem_map_of_mem ha)⟩
  · intro h
    refine ⟨hmap ▸ h.nodup, fun g hg => ?_⟩
    obtain ⟨a, ha, rfl⟩ := List.mem_map.mp hg
    exact h.below a ha

theorem Keyed.added (hk : t.Keyed) {new : Holding} (hid : new.id = t.fresh)
    (hown : ∀ o ∈ new.ownerships, o.departmentId < t.fresh)
    (hh : t'.holdings = t.holdings ++ [new]) (hd : t'.departments = t.departments)
    (hf : t.fresh + 1 ≤ t'.fresh) : t'.Keyed where
  accounts := by
    rw [← supplied_holdings, hh]
    exact ((supplied_holdings.mpr hk.accounts).append hid).of_map_eq rfl hf
  departments := hd ▸ hk.departments.of_map_eq rfl (Nat.le_of_succ_le hf)
  owned := by
    intro h hmem o ho
    rw [hh] at hmem
    rcases List.mem_append.mp hmem with hmem | hmem
    · exact Nat.lt_of_lt_of_le (hk.owned h hmem o ho) (Nat.le_of_succ_le hf)
    · rw [List.mem_singleton.mp hmem] at ho
      exact Nat.lt_of_lt_of_le (hown o ho) (Nat.le_of_succ_le hf)

theorem Keyed.mapped (hk : t.Keyed) {f : Holding → Holding} (hid : ∀ h, (f h).id = h.id)
    (hown : ∀ h ∈ t.holdings, ∀ o ∈ (f h).ownerships, o.departmentId < t.fresh)
    (hh : t'.holdings = t.holdings.map f)
    (hd : t'.departments.map (·.id) = t.departments.map (·.id)) (hf : t.fresh ≤ t'.fresh) :
    t'.Keyed where
  accounts := by
    rw [← supplied_holdings, hh]
    refine (supplied_holdings.mpr hk.accounts).of_map_eq ?_ hf
    rw [List.map_map]
    exact List.map_congr_left fun h _ => hid h
  departments := hk.departments.of_map_eq hd hf
  owned := by
    intro h hmem o ho
    rw [hh] at hmem
    obtain ⟨g, hg, rfl⟩ := List.mem_map.mp hmem
    exact Nat.lt_of_lt_of_le (hown g hg o ho) hf

theorem Keyed.same (hk : t.Keyed) (hh : t'.holdings = t.holdings)
    (hd : t'.departments.map (·.id) = t.departments.map (·.id)) (hf : t.fresh ≤ t'.fresh) :
    t'.Keyed :=
  hk.mapped (f := id) (fun _ => rfl) hk.owned (hh.trans (List.map_id _).symm) hd hf

variable {id actorId : Id} {account : Account}

theorem setAccount_keyed (hk : t.Keyed) (hid : account.id = id)
    (hown : ∀ o ∈ account.ownerships, o.departmentId < t.fresh) :
    (t.setAccount id fun _ => account).Keyed := by
  refine hk.mapped (f := fun h => if h.id == id then account.holding else h) ?_ ?_ ?_ rfl
    (Nat.le_refl _)
  · intro h
    by_cases hc : h.id = id
    · simp [hc, Account.holding, hid]
    · simp [hc]
  · intro h hmem o ho
    by_cases hc : h.id = id
    · simp only [hc, beq_self_eq_true] at ho
      exact hown o ho
    · simp only [hc, beq_iff_eq] at ho
      exact hk.owned h hmem o ho
  · simp only [holdings, setAccount, update, List.map_map]
    refine List.map_congr_left fun a _ => ?_
    by_cases hc : a.id = id
    · simp [hc, Account.holding]
    · simp [hc, Account.holding]

/-! ### Requests that leave the owners alone -/

/-- The ids of the departments with their activity, all the order of the owners reads of them. -/
def departmentStates (t : Tables) : List (Id × Bool) :=
  t.departments.map fun row => (row.id, row.active)

theorem activeIds_eq : t.activeIds = (t.departmentStates.filter Prod.snd).map Prod.fst := by
  rw [departmentStates, List.filter_map, List.map_map]
  rfl

/-- Nothing the order of the owners reads is written. -/
structure Untouched (t t' : Tables) : Prop where
  holdings : t'.holdings = t.holdings
  departments : t'.departmentStates = t.departmentStates
  fresh : t.fresh ≤ t'.fresh

theorem Untouched.departmentIds (h : Untouched t t') :
    t'.departments.map (·.id) = t.departments.map (·.id) := by
  have hfst := congrArg (List.map Prod.fst) h.departments
  simpa [departmentStates, List.map_map, Function.comp_def] using hfst

theorem Untouched.keyed (h : Untouched t t') (hk : t.Keyed) : t'.Keyed :=
  hk.same h.holdings h.departmentIds h.fresh

theorem Untouched.wellOwned (h : Untouched t t') (ho : t.WellOwned) : t'.WellOwned := by
  rw [WellOwned, h.holdings, activeIds_eq, h.departments, ← activeIds_eq]
  exact ho

theorem setAccount_untouched (hf : ∀ account, (f account).holding = account.holding) :
    Untouched t (t.setAccount id f) :=
  ⟨setAccount_map hf, rfl, Nat.le_refl _⟩

theorem replaceUserRoles_untouched {target : Id} {ids : List Id}
    (h : t.replaceUserRoles S actorId target ids = some t') : Untouched t t' := by
  simp only [replaceUserRoles, Option.bind_eq_bind, Option.bind_eq_some_iff,
    Option.guard_eq_some', exists_const] at h
  obtain ⟨actor, -, -, account, -, roles, -, -, heq⟩ := h
  cases heq
  exact setAccount_untouched fun _ => rfl

variable {name password : String}

theorem createRole_untouched {company : Option String}
    (h : t.createRole S actorId name company = some t') : Untouched t t' := by
  simp only [createRole, Option.bind_eq_bind, Option.bind_eq_some_iff, Option.guard_eq_some',
    exists_const] at h
  obtain ⟨actor, -, -, -, -, -, heq⟩ := h
  cases heq
  exact ⟨rfl, rfl, Nat.le_succ _⟩

theorem updateRole_untouched {name : Option String} {active : Option Bool}
    (h : t.updateRole S actorId id name active = some t') : Untouched t t' := by
  simp only [updateRole, Option.bind_eq_bind, Option.bind_eq_some_iff, Option.guard_eq_some',
    exists_const] at h
  obtain ⟨actor, -, -, row, -, -, -, heq⟩ := h
  cases heq
  exact ⟨rfl, rfl, Nat.le_refl _⟩

theorem replaceRolePermissions_untouched {permissions : List RolePermission}
    (h : t.replaceRolePermissions actorId id permissions = some t') : Untouched t t' := by
  simp only [replaceRolePermissions, Option.bind_eq_bind, Option.bind_eq_some_iff,
    Option.guard_eq_some', exists_const] at h
  obtain ⟨actor, -, -, row, -, -, -, -, -, -, heq⟩ := h
  cases heq
  exact ⟨rfl, rfl, Nat.le_refl _⟩

variable {now : Nat}

theorem createInvitation_untouched {input : InvitationCreate}
    (h : t.createInvitation S actorId input now = some t') : Untouched t t' := by
  simp only [createInvitation, Option.bind_eq_bind, Option.bind_eq_some_iff,
    Option.guard_eq_some', exists_const] at h
  obtain ⟨actor, -, -, -, -, -, -, -, -, heq⟩ := h
  cases heq
  exact ⟨rfl, rfl, Nat.le_succ _⟩

/-! ### Departments -/

theorem createDepartment_step (hk : t.Keyed) (ho : t.WellOwned)
    (h : t.createDepartment S actorId name = some t') : t'.Keyed ∧ t'.WellOwned := by
  simp only [createDepartment, Option.bind_eq_bind, Option.bind_eq_some_iff,
    Option.guard_eq_some', exists_const] at h
  obtain ⟨actor, -, -, h⟩ := h
  split at h
  · cases h
  · simp only [Option.bind_eq_some_iff, Option.guard_eq_some', exists_const] at h
    obtain ⟨-, heq⟩ := h
    cases heq
    constructor
    · exact ⟨hk.accounts.of_map_eq rfl (Nat.le_succ _), hk.departments.append rfl,
        fun h hmem o hown => Nat.lt_succ_of_lt (hk.owned h hmem o hown)⟩
    · refine ⟨ho.members, fun id hid g hg h hh hgact hhact hgown hhown => ?_⟩
      obtain ⟨row, hrow, hact, rfl⟩ := mem_activeIds.mp hid
      rcases List.mem_append.mp hrow with hrow | hrow
      · exact ho.single row.id (mem_activeIds.mpr ⟨row, hrow, hact, rfl⟩) g hg h hh hgact hhact
          hgown hhown
      · -- Nobody owns a department that is new.
        obtain ⟨o, hmem, hoid, -⟩ := hgown
        rw [List.mem_singleton.mp hrow] at hoid
        exact absurd hoid (Nat.ne_of_lt (hk.owned g hg o hmem))

theorem deleteDepartment_step (hk : t.Keyed) (ho : t.WellOwned)
    (h : t.deleteDepartment actorId id = some t') : t'.Keyed ∧ t'.WellOwned := by
  simp only [deleteDepartment, Option.bind_eq_bind, Option.bind_eq_some_iff,
    Option.guard_eq_some', exists_const] at h
  obtain ⟨actor, -, -, row, -, -, heq⟩ := h
  cases heq
  refine ⟨⟨hk.accounts, hk.departments.filter _, hk.owned⟩, ho.members, fun id hid => ?_⟩
  obtain ⟨other, hother, hact, rfl⟩ := mem_activeIds.mp hid
  exact ho.single other.id
    (mem_activeIds.mpr ⟨other, List.mem_of_mem_filter hother, hact, rfl⟩)

/-- One active account at most owns the department. -/
def SoleOwner (t : Tables) (id : Id) : Prop :=
  ∀ g ∈ t.holdings, ∀ h ∈ t.holdings, g.active = true → h.active = true →
    Owns g.ownerships id → Owns h.ownerships id → g.id = h.id

theorem renameDepartment_untouched {row : Department}
    (h : t.renameDepartment S row name = some t') : Untouched t t' := by
  unfold renameDepartment at h
  split at h
  · cases h
  · simp only [Option.bind_eq_bind, Option.bind_eq_some_iff, Option.guard_eq_some',
      exists_const] at h
    obtain ⟨-, heq⟩ := h
    cases heq
    exact ⟨map_update fun _ _ _ => rfl, map_update fun _ _ _ => rfl, Nat.le_refl _⟩

theorem setDepartment_step (hk : t.Keyed) (ho : t.WellOwned)
    (hthere : ∃ row ∈ t.departments, row.id = id) {active : Option Bool} :
    (t.setDepartment id fun row => { row with active := active.getD row.active }).Keyed ∧
      ((t.setDepartment id fun row => { row with active := active.getD row.active }).WellOwned ↔
        (active = some true → t.SoleOwner id)) := by
  have hmem : ∀ {other : Id}, other ≠ id →
      (other ∈ (t.setDepartment id fun row =>
        { row with active := active.getD row.active }).activeIds ↔ other ∈ t.activeIds) := by
    intro other hne
    simp only [mem_activeIds, setDepartment, mem_update]
    constructor
    · rintro ⟨_, ⟨old, hold, rfl⟩, hact, hid⟩
      by_cases hc : old.id = id
      · exact absurd (by simpa [hc] using hid.symm) hne
      · exact ⟨old, hold, by simpa [hc] using hact, by simpa [hc] using hid⟩
    · rintro ⟨old, hold, hact, rfl⟩
      exact ⟨old, ⟨old, hold, by simp [hne]⟩, hact, rfl⟩
  have hself : id ∈ (t.setDepartment id fun row =>
      { row with active := active.getD row.active }).activeIds →
        active = some true ∨ id ∈ t.activeIds := by
    simp only [mem_activeIds, setDepartment, mem_update]
    rintro ⟨_, ⟨old, hold, rfl⟩, hact, hid⟩
    cases active with
    | none =>
      have hsame : (if old.id == id then { old with active := old.active } else old) = old :=
        ite_self old
      rw [Option.getD_none, hsame] at hact hid
      exact Or.inr ⟨old, hold, hact, hid⟩
    | some b =>
      cases b with
      | true => exact Or.inl rfl
      | false =>
        by_cases hc : old.id = id
        · simp [hc] at hact
        · simp [hc] at hid
  refine ⟨hk.same rfl (map_update fun _ _ _ => rfl) (Nat.le_refl _), ?_⟩
  constructor
  · rintro hord rfl
    obtain ⟨row, hrow, hid⟩ := hthere
    refine hord.single id (mem_activeIds.mpr ⟨{ row with active := true }, ?_, rfl, hid⟩)
    exact mem_update.mpr ⟨row, hrow, by simp [hid]⟩
  · intro hsole
    refine ⟨ho.members, fun other hother => ?_⟩
    by_cases hc : other = id
    · subst hc
      rcases hself hother with hact | hact
      · exact hsole hact
      · exact ho.single other hact
    · exact ho.single other ((hmem hc).mp hother)

theorem updateDepartment_step (hk : t.Keyed) (ho : t.WellOwned) {input : DepartmentUpdate}
    (h : t.updateDepartment S actorId id input = some t') :
    t'.Keyed ∧ (t'.WellOwned ↔ (input.active = some true → t.SoleOwner id)) := by
  simp only [updateDepartment, Option.bind_eq_bind, Option.bind_eq_some_iff,
    Option.guard_eq_some', exists_const] at h
  obtain ⟨actor, -, -, row, hrow, -, h⟩ := h
  have hget : t.department? id = some row := (Option.filter_eq_some_iff.mp hrow).1
  have hthere : ∃ row ∈ t.departments, row.id = id := ⟨row, mem_of_get hget, key_of_get hget⟩
  cases hname : input.name with
  | none =>
    rw [hname] at h
    cases h
    exact setDepartment_step hk ho hthere
  | some name =>
    rw [hname] at h
    obtain ⟨renamed, hrenamed, heq⟩ := Option.bind_eq_some_iff.mp h
    cases heq
    have hu := renameDepartment_untouched hrenamed
    have hthere' : ∃ row ∈ renamed.departments, row.id = id := by
      have hids := hu.departmentIds
      rw [← List.mem_map, hids, List.mem_map]
      exact hthere
    have hstep : _ ∧ (_ ↔ (input.active = some true → renamed.SoleOwner id)) :=
      setDepartment_step (hu.keyed hk) (hu.wellOwned ho) hthere'
    rw [SoleOwner, hu.holdings] at hstep
    exact hstep

/-- The members of a department that own it are among the accounts named. -/
def OwnersNamed (t : Tables) (id : Id) (userIds : List Id) : Prop :=
  ∀ row, t.department? id = some row → ∀ h ∈ t.holdings, Owns h.ownerships id →
    ∃ user ∈ t.getByIds (distinct userIds) row.companyDomain, user.id = h.id

theorem replaceDepartmentMembers_step (hk : t.Keyed) (ho : t.WellOwned) {userIds : List Id}
    (h : t.replaceDepartmentMembers actorId id userIds = some t') :
    t'.Keyed ∧ (t'.WellOwned ↔ t.OwnersNamed id userIds) := by
  simp only [replaceDepartmentMembers, Option.bind_eq_bind, Option.bind_eq_some_iff,
    Option.guard_eq_some', exists_const] at h
  obtain ⟨actor, -, -, row, hrow, -, heq⟩ := h
  have hget : t.department? id = some row := (Option.filter_eq_some_iff.mp hrow).1
  let users := t.getByIds (distinct userIds) row.companyDomain
  let f (g : Holding) : Holding :=
    { g with
      departmentIds :=
        if users.any (fun user => user.id == g.id) then
          (if g.departmentIds.contains id then g.departmentIds
            else g.departmentIds.filter (fun other => other != id) ++ [id])
        else g.departmentIds.filter fun other => other != id }
  have hholdings : t'.holdings = t.holdings.map f := by
    cases heq
    simp only [holdings, List.map_map]
    rfl
  have hdepartments : t'.departments = t.departments := by
    cases heq
    rfl
  have hfresh : t'.fresh = t.fresh := by
    cases heq
    rfl
  have hother : ∀ g, ∀ other ≠ id, other ∈ (f g).departmentIds ↔ other ∈ g.departmentIds := by
    intro g other hne
    simp only [f]
    split
    · split
      · rfl
      · simp [hne]
    · simp [hne]
  have hself : ∀ g, id ∈ (f g).departmentIds ↔ ∃ user ∈ users, user.id = g.id := by
    intro g
    have hany : (users.any fun user => user.id == g.id) = true ↔
        ∃ user ∈ users, user.id = g.id := by
      simp
    simp only [f]
    split
    · rename_i hnamed
      refine iff_of_true ?_ (hany.mp hnamed)
      split
      · rename_i hin
        exact List.contains_iff_mem.mp hin
      · exact List.mem_append_right _ (List.mem_singleton_self id)
    · rename_i hnamed
      exact iff_of_false (by simp) (mt hany.mpr hnamed)
  refine ⟨hk.mapped (f := f) (fun _ => rfl) hk.owned hholdings (by rw [hdepartments])
    (Nat.le_of_eq hfresh.symm), ?_⟩
  rw [WellOwned, hholdings, show t'.activeIds = t.activeIds by rw [activeIds, hdepartments]; rfl]
  constructor
  · intro hord row' hget' g hg hown
    rw [hget] at hget'
    cases hget'
    exact (hself g).mp (hord.members (f g) (List.mem_map_of_mem hg) id hown)
  · intro hnamed
    constructor
    · intro g' hg' other hown
      obtain ⟨g, hg, rfl⟩ := List.mem_map.mp hg'
      by_cases hc : other = id
      · subst hc
        exact (hself g).mpr (hnamed row hget g hg hown)
      · exact (hother g other hc).mpr (ho.members g hg other hown)
    · intro other hact g' hg' h' hh' hgact hhact hgown hhown
      obtain ⟨g, hg, rfl⟩ := List.mem_map.mp hg'
      obtain ⟨h, hh, rfl⟩ := List.mem_map.mp hh'
      exact ho.single other hact g hg h hh hgact hhact hgown hhown

/-! ### Accounts -/

theorem added_step (hk : t.Keyed) (ho : t.WellOwned) {new : Account} (hid : new.id = t.fresh)
    (hf : RolelessHolding f) (hfid : (f new).id = t.fresh)
    (hbelow : ∀ o ∈ (f new).ownerships, o.departmentId < t.fresh) :
    ((t.addAccount new).bootstrapRbac.setAccount t.fresh f).Keyed ∧
      (((t.addAccount new).bootstrapRbac.setAccount t.fresh f).WellOwned ↔
        Fits t.activeIds t.holdings (f new).holding) := by
  have hholdings := added_holdings hk hid hf
  have hdepartments : ((t.addAccount new).bootstrapRbac.setAccount t.fresh f).departments =
      t.departments := (t.addAccount new).bootstrap_frame.departments
  refine ⟨hk.added hfid hbelow hholdings hdepartments (t.addAccount new).bootstrap_frame.fresh, ?_⟩
  rw [WellOwned, hholdings, activeIds, hdepartments]
  refine ordered_append_iff ho fun h hmem heq => ?_
  exact absurd (heq.trans hfid)
    (Nat.ne_of_lt ((supplied_holdings.mpr hk.accounts).below h hmem))

theorem placed_roleless (p : Placement) (requested : Option (List RoleRow)) (given : Bool) :
    RolelessHolding (Account.placed p requested given) := by
  intro account ids
  cases requested <;> cases given <;> rfl

theorem placed_holding (p : Placement) (requested : Option (List RoleRow)) (given : Bool)
    (account : Account) : (Account.placed p requested given account).holding =
      { id := account.id
        active := account.active
        departmentIds := p.memberships.map (·.id)
        ownerships :=
          if given then applyDepartmentOwnership account.ownerships p.owned
          else account.ownerships } := by
  cases requested <;> cases given <;> rfl

theorem registerUser_spec {email : Email} {dept : Option String} {role : String}
    (h : t.registerUser S email password dept role = some t') :
    ∃ new : Account, new.id = t.fresh ∧ new.ownerships = [] ∧ t' = t.addAccount new := by
  simp only [registerUser, Option.bind_eq_bind, Option.bind_eq_some_iff, Option.guard_eq_some',
    exists_const] at h
  obtain ⟨-, -, -, heq⟩ := h
  exact ⟨_, rfl, rfl, (Option.some.inj heq).symm⟩

theorem createManagedUser_step (hk : t.Keyed) (ho : t.WellOwned) {input : ManagedUserCreate}
    (h : t.createManagedUser S actorId input = some t') : t'.Keyed ∧ t'.WellOwned := by
  simp only [createManagedUser, Option.bind_eq_bind, Option.bind_eq_some_iff,
    Option.guard_eq_some', exists_const] at h
  obtain ⟨actor, -, -, password, -, -, -, -, p, hplacement, requested, -, -, hsingle,
    registered, hregistered, heq⟩ := h
  obtain ⟨new, hid, hnone, rfl⟩ := registerUser_spec hregistered
  simp only [newPlacement, Option.bind_eq_bind, Option.bind_eq_some_iff, Option.guard_eq_some',
    exists_const] at hplacement
  obtain ⟨memberships, -, primary, -, -, owned, hlisted, hsub, hp⟩ := hplacement
  cases hp
  cases heq
  let f := Account.placed ⟨memberships, primary, owned⟩ requested input.ownedDepartmentIds.isSome
  have hholding : (f new).holding = _ := placed_holding _ _ _ _
  have howned : (f new).ownerships =
      if input.ownedDepartmentIds.isSome then applyDepartmentOwnership [] owned else [] := by
    rw [← hnone]
    exact congrArg Holding.ownerships hholding
  have howns : ∀ {id : Id}, Owns (f new).ownerships id → ∃ row ∈ owned, row.id = id := by
    intro id hown
    rw [howned] at hown
    split at hown
    · exact owns_apply.mp hown
    · obtain ⟨o, ho, -⟩ := hown
      cases ho
  have hbelow : ∀ o ∈ (f new).ownerships, o.departmentId < t.fresh := by
    rw [howned]
    split
    · exact apply_below hk.departments (fun o ho => by cases ho)
        fun row hrow => ((mem_resolveOwned hlisted).mp hrow).1
    · intro o ho
      cases ho
  obtain ⟨hkeyed, hiff⟩ := added_step hk ho (f := f) hid (placed_roleless _ _ _)
    ((congrArg Holding.id hholding).trans hid) hbelow
  refine ⟨hkeyed, hiff.mpr ⟨fun id hown => ?_, fun _ id _ hown g hg _ hact => ?_⟩⟩
  · obtain ⟨row, hrow, rfl⟩ := howns hown
    rw [hholding]
    simpa using List.all_eq_true.mp hsub row hrow
  · obtain ⟨row, hrow, rfl⟩ := howns hown
    exact haveSingleOwner_iff.mp hsingle g hg (by simp) hact row hrow

theorem demote_holding {account' : Account} (h : t.demote account = some account') :
    account'.holding = account.holding := by
  unfold demote at h
  split at h
  · obtain ⟨row, -, rfl⟩ := Option.map_eq_some_iff.mp h
    rfl
  · cases h
    rfl

theorem deactivateUser_step (hk : t.Keyed) (ho : t.WellOwned) {target : Id}
    (h : t.deactivateUser actorId target = some t') : t'.Keyed ∧ t'.WellOwned := by
  simp only [deactivateUser, Option.bind_eq_bind, Option.bind_eq_some_iff,
    Option.guard_eq_some', exists_const] at h
  obtain ⟨actor, -, -, account, hvisible, -, -, -, demoted, hdemoted, heq⟩ := h
  cases heq
  have hget : Rows.get Account.id target t.accounts = some account :=
    (Option.filter_eq_some_iff.mp hvisible).1
  have hholding : demoted.holding = { account.holding with active := false } :=
    demote_holding hdemoted
  have hid : demoted.id = target := by
    rw [show demoted.id = demoted.holding.id from rfl, hholding]
    exact (key_of_get hget : account.id = target)
  constructor
  · refine setAccount_keyed hk hid ?_
    rw [show demoted.ownerships = demoted.holding.ownerships from rfl, hholding]
    exact hk.owned account.holding (List.mem_map_of_mem (mem_of_get hget))
  · rw [wellOwned_setAccount_iff ho hget hid, hholding]
    exact ⟨ho.members account.holding (List.mem_map_of_mem (mem_of_get hget)),
      fun hact => absurd hact Bool.false_ne_true⟩

/-! ### Invitations -/

theorem withAudience_holding (item : Invitation) (account : Account) :
    (t.withAudience item account).holding =
      if item.audienceIds = [] then account.holding
      else { account.holding with
        departmentIds := (t.audience item account.companyDomain).map (·.id) } := by
  unfold withAudience
  cases item.audienceIds <;> rfl

theorem withAudience_roleless (item : Invitation) : RolelessHolding (t.withAudience item) := by
  intro account ids
  simp only [withAudience_holding]
  rfl

theorem withAudience_fields (item : Invitation) (account : Account) :
    (t.withAudience item account).holding =
      { account.holding with departmentIds := (t.withAudience item account).departmentIds } := by
  unfold withAudience
  split
  · rfl
  · rfl

theorem withInvitedAudience_roleless (item : Invitation) :
    RolelessHolding (t.withInvitedAudience item) := by
  intro account ids
  unfold withInvitedAudience
  split
  · rfl
  · rfl

theorem withInvitedAudience_fields (item : Invitation) (account : Account) :
    (t.withInvitedAudience item account).holding =
      { account.holding with
        departmentIds := (t.withInvitedAudience item account).departmentIds } := by
  unfold withInvitedAudience
  split
  · rfl
  · rfl

theorem invited_step (hk : t.Keyed) (ho : t.WellOwned) (item : Invitation) (password : String)
    (hf : RolelessHolding f)
    (hholding : ∀ account, (f account).holding =
        { account.holding with departmentIds := (f account).departmentIds }) :
    ((t.addAccount (t.invitedAccount item password)).bootstrapRbac.setAccount t.fresh f).Keyed ∧
      ((t.addAccount (t.invitedAccount item password)).bootstrapRbac.setAccount t.fresh
        f).WellOwned := by
  have hnone : (f (t.invitedAccount item password)).ownerships = [] :=
    congrArg Holding.ownerships (hholding (t.invitedAccount item password))
  have hid : (t.invitedAccount item password).id = t.fresh := rfl
  obtain ⟨hkeyed, hiff⟩ := added_step hk ho hid hf
    (congrArg Holding.id (hholding (t.invitedAccount item password)))
    (fun o ho => by rw [hnone] at ho; cases ho)
  have hno : ∀ id, ¬ Owns (f (t.invitedAccount item password)).ownerships id := by
    rintro id ⟨o, ho, -⟩
    rw [hnone] at ho
    cases ho
  exact ⟨hkeyed, hiff.mpr ⟨fun id hown => absurd hown (hno id),
    fun _ id _ hown => absurd hown (hno id)⟩⟩

/-- When the account that is invited again leaves the owners in order. -/
def AcceptRespects (t : Tables) (item : Invitation) (account : Account) : Prop :=
  (item.audienceIds ≠ [] → ∀ id, Owns account.ownerships id →
    id ∈ (t.audience item account.companyDomain).map (·.id)) ∧
  ∀ id ∈ t.activeIds, Owns account.ownerships id → ∀ h ∈ t.holdings, h.id ≠ account.id →
    h.active = true → ¬ Owns h.ownerships id

theorem reinvited_holdings (hk : t.Keyed) {item : Invitation}
    (hget : Rows.get Account.id account.id t.accounts = some account) :
    ((t.setAccount account.id fun a => a.reinvited item password).bootstrapRbac.setAccount
      account.id (t.withAudience item)).holdings =
        (t.setAccount account.id fun _ =>
          t.withAudience item (account.reinvited item password)).holdings := by
  have hroleless : Roleless fun a : Account =>
      if a.id == account.id then (t.withAudience item a).holding else a.holding := by
    intro a ids
    simp only
    rw [withAudience_roleless item a ids]
    rfl
  have hmap : ((t.setAccount account.id fun a => a.reinvited item password).bootstrapRbac.setAccount
      account.id (t.withAudience item)).holdings =
      ((t.setAccount account.id fun a => a.reinvited item password).bootstrapRbac.accounts.map
        fun a => if a.id == account.id then (t.withAudience item a).holding else a.holding) := by
    simp only [holdings, setAccount, update, List.map_map]
    refine List.map_congr_left fun a _ => ?_
    by_cases hc : a.id = account.id
    · simp [hc]
    · simp [hc]
  rw [hmap, (bootstrap_frame _).accounts hroleless]
  simp only [setAccount, holdings]
  rw [update_key hk.accounts.nodup hget]
  simp only [update, List.map_map]
  refine List.map_congr_left fun a _ => ?_
  by_cases hc : a.id = account.id
  · simp [hc, Account.reinvited]
  · simp [hc]

theorem fits_reinvited_iff (ho : t.WellOwned) {item : Invitation}
    (hget : Rows.get Account.id account.id t.accounts = some account) :
    Fits t.activeIds t.holdings (t.withAudience item (account.reinvited item password)).holding ↔
      t.AcceptRespects item account := by
  have hmembers := ho.members account.holding (List.mem_map_of_mem (mem_of_get hget))
  rw [withAudience_holding]
  constructor
  · intro hf
    refine ⟨fun hsome id hown => ?_, fun id hact hown g hg hne => ?_⟩
    · rw [if_neg hsome] at hf
      exact hf.members id hown
    · split at hf
      · exact hf.single rfl id hact hown g hg hne
      · exact hf.single rfl id hact hown g hg hne
  · rintro ⟨haudience, hrivals⟩
    split
    · exact ⟨hmembers, fun _ => hrivals⟩
    · rename_i hsome
      exact ⟨haudience hsome, fun _ => hrivals⟩

theorem accept_step (hk : t.Keyed) (ho : t.WellOwned) {account' : Id}
    (h : t.accept id password now = some (account', t')) :
    t'.Keyed ∧ (t'.WellOwned ↔ ∀ item account, t.liveInvitation id now = some item →
      t.getByEmail item.email = some account → t.AcceptRespects item account) := by
  obtain ⟨item, hitem, h⟩ := Option.bind_eq_some_iff.mp h
  split at h
  · rename_i account hemail
    simp only [Option.bind_eq_bind, Option.bind_eq_some_iff, Option.guard_eq_some',
      exists_const, Option.some.injEq, Prod.mk.injEq] at h
    obtain ⟨hinactive, -, rfl⟩ := h
    have hget : Rows.get Account.id account.id t.accounts = some account :=
      Where.find?_key hk.accounts.nodup (mem_of_get hemail)
    let final := t.withAudience item (account.reinvited item password)
    have hholding : final.holding = _ := withAudience_holding _ _
    have hid : final.id = account.id := by
      rw [show final.id = final.holding.id from rfl, hholding]
      split <;> rfl
    have howns : final.ownerships = account.ownerships := by
      rw [show final.ownerships = final.holding.ownerships from rfl, hholding]
      split <;> rfl
    let reactivated := t.setAccount account.id fun a => a.reinvited item password
    have hh : (reactivated.bootstrapRbac.setAccount account.id (t.withAudience item)).holdings =
        (t.setAccount account.id fun _ => final).holdings := reinvited_holdings hk hget
    have hd : reactivated.bootstrapRbac.departments = t.departments :=
      reactivated.bootstrap_frame.departments
    have hkeyed : (t.setAccount account.id fun _ => final).Keyed :=
      setAccount_keyed hk hid
        (howns ▸ hk.owned account.holding (List.mem_map_of_mem (mem_of_get hget)))
    refine ⟨hkeyed.same hh (congrArg (List.map (·.id)) hd) reactivated.bootstrap_frame.fresh, ?_⟩
    have hordered : ((reactivated.bootstrapRbac.setAccount account.id
        (t.withAudience item)).useInvitation id).WellOwned ↔
        (t.setAccount account.id fun _ => final).WellOwned := by
      refine iff_of_eq (congrArg₂ Ordered ?_ hh)
      exact congrArg (fun rows : List Department => (rows.filter (·.active)).map (·.id)) hd
    rw [hordered, wellOwned_setAccount_iff ho hget hid, fits_reinvited_iff ho hget]
    constructor
    · intro hr item' account' hitem' hemail'
      rw [hitem] at hitem'
      cases hitem'
      rw [hemail] at hemail'
      cases hemail'
      exact hr
    · exact fun hr => hr item account hitem hemail
  · rename_i hemail
    obtain ⟨-, rfl⟩ := h
    obtain ⟨hkeyed, hordered⟩ := invited_step hk ho item password (withAudience_roleless item)
      (withAudience_fields item)
    refine ⟨⟨hkeyed.accounts, hkeyed.departments, hkeyed.owned⟩, iff_of_true hordered ?_⟩
    intro item' account' hitem' hemail'
    rw [hitem] at hitem'
    cases hitem'
    rw [hemail] at hemail'
    cases hemail'

theorem provision_step (hk : t.Keyed) (ho : t.WellOwned) {account : Id} {secret : String}
    (h : t.provision id secret now = some (account, t')) : t'.Keyed ∧ t'.WellOwned := by
  simp only [provision, Option.bind_eq_bind, Option.bind_eq_some_iff, Option.guard_eq_some',
    exists_const, Option.some.injEq, Prod.mk.injEq] at h
  obtain ⟨item, -, -, -, rfl⟩ := h
  obtain ⟨hkeyed, hordered⟩ := invited_step hk ho item secret (withInvitedAudience_roleless item)
    (withInvitedAudience_fields item)
  exact ⟨⟨hkeyed.accounts, hkeyed.departments, hkeyed.owned⟩, hordered⟩

/-! ### Runs -/

/-- The requests that leave the owners in order. -/
def Respects (S : Settings) (t : Tables) : Request → Prop
  | .updateManagedUser _ target input => ∀ account,
      Rows.get Account.id target t.accounts = some account → t.UpdateRespects S input account
  | .updateDepartment _ id input => input.active = some true → t.SoleOwner id
  | .replaceDepartmentMembers _ id userIds => t.OwnersNamed id userIds
  | .acceptInvitation id _ now => ∀ item account, t.liveInvitation id now = some item →
      t.getByEmail item.email = some account → t.AcceptRespects item account
  | _ => True

/-- **A request** keeps the keys, and the order of the owners exactly when it respects it. -/
theorem handle_step (hk : t.Keyed) (ho : t.WellOwned) {r : Request}
    (h : t.handle S r = some t') : t'.Keyed ∧ (t'.WellOwned ↔ t.Respects S r) := by
  have huntouched : Untouched t t' → t'.Keyed ∧ (t'.WellOwned ↔ True) :=
    fun hu => ⟨hu.keyed hk, iff_of_true (hu.wellOwned ho) trivial⟩
  have hordered : t'.Keyed ∧ t'.WellOwned → t'.Keyed ∧ (t'.WellOwned ↔ True) :=
    fun hboth => ⟨hboth.1, iff_of_true hboth.2 trivial⟩
  cases r with
  | createManagedUser actor input => exact hordered (createManagedUser_step hk ho h)
  | updateManagedUser actor target input =>
    obtain ⟨account, hget, ⟨a, hid, hown, rfl⟩, hiff⟩ := updateManagedUser_step hk ho h
    refine ⟨setAccount_keyed hk hid hown, hiff.trans ⟨fun hr account' hget' => ?_, fun hr =>
      hr account hget⟩⟩
    rw [hget] at hget'
    cases hget'
    exact hr
  | deactivateUser actor target => exact hordered (deactivateUser_step hk ho h)
  | replaceUserRoles actor target roleIds => exact huntouched (replaceUserRoles_untouched h)
  | createRole actor name company => exact huntouched (createRole_untouched h)
  | updateRole actor id name active => exact huntouched (updateRole_untouched h)
  | replaceRolePermissions actor id permissions =>
    exact huntouched (replaceRolePermissions_untouched h)
  | createDepartment actor name => exact hordered (createDepartment_step hk ho h)
  | updateDepartment actor id input => exact updateDepartment_step hk ho h
  | deleteDepartment actor id => exact hordered (deleteDepartment_step hk ho h)
  | replaceDepartmentMembers actor id userIds => exact replaceDepartmentMembers_step hk ho h
  | createInvitation actor input now => exact huntouched (createInvitation_untouched h)
  | acceptInvitation id password now =>
    obtain ⟨⟨account, t''⟩, haccept, rfl⟩ := Option.map_eq_some_iff.mp h
    exact accept_step hk ho haccept
  | provisionInvited id secret now =>
    obtain ⟨⟨account, t''⟩, hprovision, rfl⟩ := Option.map_eq_some_iff.mp h
    exact hordered (provision_step hk ho hprovision)

end Tables

/-- A directory to start from: numbered, with its owners in order. -/
def Starts (t : Tables) : Prop := t.Keyed ∧ t.WellOwned

/-- **The owners stay in order** in every state of exactly the runs whose requests respect them. -/
theorem owners_ordered_iff {S : Settings} {tr : List (Tables × Request)} {t : Tables}
    (r : Run Starts (Requests S) tr t) :
    (Throughout (fun t _ => t.WellOwned) tr ∧ t.WellOwned) ↔ Throughout (Tables.Respects S) tr :=
  r.invariant_iff (K := Tables.Keyed) (fun _ hs => hs)
    fun _ _ _ hk ho h => Tables.handle_step hk ho h

/-! ### A company with one department -/

section Example

def plain : Settings where
  lower := id
  sqlLower := id
  casefold := id
  isResetOperator _ := false
  allowedDomains := []

theorem finance_name : normalizeDepartmentName (some "Finance") = some "Finance" := by
  decide +kernel

def company : Tables where
  accounts :=
    [⟨0, ⟨"boss", "acme.test"⟩, Auth.getPasswordHash "secret", "acme.test", none, "CEO", true, [],
        [], []⟩,
      ⟨1, ⟨"ann", "acme.test"⟩, Auth.getPasswordHash "secret", "acme.test", some "Finance", "Staff",
        true, [], [2], [⟨2, true⟩]⟩]
  departments := [⟨2, "acme.test", "Finance", true, finance_name⟩]
  roles := []
  invitations := []
  fresh := 3

theorem company_starts : Starts company := by
  refine ⟨⟨⟨by decide, by decide⟩, ⟨by decide, by decide⟩, by decide⟩, ?_, ?_⟩
  · intro h hh id hown
    obtain ⟨o, ho, rfl, -⟩ := hown
    revert h o
    decide
  · intro id hid g hg h hh _ _ hgown hhown
    revert id g h
    decide

def naming (members : List Id) : Request := .replaceDepartmentMembers 0 2 members

theorem naming_handled (members : List Id) (h : members = [1] ∨ members = []) :
    (company.handle plain (naming members)).isSome = true := by
  rcases h with rfl | rfl
  · decide +kernel
  · decide +kernel

theorem naming_run {members : List Id} (h : members = [1] ∨ members = []) :
    Run Starts (Requests plain) [(company, naming members)]
      ((company.handle plain (naming members)).get (naming_handled members h)) :=
  (Run.start company_starts).next (Option.some_get _).symm

/-- The owner stays a member. -/
theorem naming_owner_ordered :
    ((company.handle plain (naming [1])).get (naming_handled [1] (Or.inl rfl))).WellOwned := by
  have hrespects : Throughout (Tables.Respects plain) [(company, naming [1])] := by
    intro p hp
    rw [List.mem_singleton.mp hp]
    intro row hrow h hh hown
    cases hrow
    revert h
    decide +kernel
  exact ((owners_ordered_iff (naming_run (Or.inl rfl))).mpr hrespects).2

/-- **Owners are lost as members**: nothing keeps an owner on the list of members. -/
theorem owner_not_member : ¬ ∀ (S : Settings) (tr : List (Tables × Request)) (t : Tables),
    Run Starts (Requests S) tr t → t.WellOwned := by
  intro hall
  have hordered := hall plain _ _ (naming_run (Or.inr rfl))
  have hholding : (⟨1, true, [], [⟨2, true⟩]⟩ : Holding) ∈
      ((company.handle plain (naming [])).get (naming_handled [] (Or.inr rfl))).holdings := by
    decide +kernel
  have hmember := hordered.members _ hholding 2 (by decide)
  cases hmember

end Example

end QnscKb.Users
