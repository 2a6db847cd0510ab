import QnscKb.Users.Completion

/-!
# Users — Acceptance

What an accepted invitation gives (`accept_invitation` and `entra_callback` of
`src/api/routers/auth.py`).
-/

namespace QnscKb.Users
open Access Rows

/-! ### What roles grant -/

/-- The widest scope of a key that roles grant in a company. -/
def rolesScope (company : String) (rows : List RoleRow) (key : PermissionKey) : Option Scope :=
  ((rows.filter fun row =>
      row.active && (row.companyDomain == none || row.companyDomain == some company)).flatMap
    fun row => (row.permissions.filter fun p => p.key == key).map (·.scope)).foldl widen none

theorem rolesScope_single (company : String) {row row' : RoleRow}
    (hactive : row.active = row'.active) (hcompany : row.companyDomain = row'.companyDomain)
    (hpermissions : row.permissions = row'.permissions) :
    rolesScope company [row] = rolesScope company [row'] := by
  funext key
  simp only [rolesScope, List.filter_cons, hactive, hcompany]
  split
  · rw [List.flatMap_cons, List.flatMap_cons, hpermissions]
  · rfl

namespace Tables

variable {t t' : Tables}

theorem applies_asUser (account : Account) (row : RoleRow) :
    row.toRole.applies (t.asUser account) = (row.active &&
      (row.companyDomain == none || row.companyDomain == some account.companyDomain)) := by
  rw [Role.applies, RoleRow.toRole, asUser]
  cases row.active with
  | false => rfl
  | true => cases row.companyDomain with
    | none => rfl
    | some company => simp [bne]

variable {account : Account}

theorem effectiveScope_asUser (h : t.rolesOf account ≠ []) (key : PermissionKey) :
    effectiveScope (t.asUser account) key =
      rolesScope account.companyDomain (t.rolesOf account) key := by
  have hne : (t.asUser account).roles.isEmpty = false := by
    rw [asUser, List.isEmpty_map, List.isEmpty_eq_false_iff]
    exact h
  have hroles : (t.asUser account).roles.filter (fun role => role.applies (t.asUser account)) =
      ((t.rolesOf account).filter fun row => row.active &&
        (row.companyDomain == none || row.companyDomain == some account.companyDomain)).map
          RoleRow.toRole := by
    rw [show (t.asUser account).roles = (t.rolesOf account).map RoleRow.toRole from rfl,
      List.filter_map]
    congr 2
    funext row
    exact t.applies_asUser account row
  rw [effectiveScope, hne, hroles, List.flatMap_map]
  rfl

/-- The role an invitation names, as the bootstrap makes sure of it. -/
def invitedRole (t : Tables) (name company : String) : RoleRow :=
  match t.systemRole name (some company) with
  | some row => row.completed name
  | none => newRole t.fresh name (some company)

def invitedScope (t : Tables) (name company : String) : PermissionKey → Option Scope :=
  rolesScope company [t.invitedRole name company]

theorem invitedScope_congr (h : t'.roles = t.roles) (name company : String) :
    t'.invitedScope name company = t.invitedScope name company := by
  have hrole : t'.systemRole name (some company) = t.systemRole name (some company) := by
    rw [systemRole, h, systemRole]
  unfold invitedScope invitedRole
  rw [hrole]
  cases t.systemRole name (some company) with
  | none => exact rolesScope_single company rfl rfl rfl
  | some row => rfl

/-- The roles an account keeps, as the bootstrap completes them. -/
def keptRoles (t : Tables) (account : Account) : List RoleRow :=
  (t.rolesOf account).map (t.completeBy t.asked)

theorem rolesOf_single (h : Supplied RoleRow.id t.roles t.fresh) {row : RoleRow}
    (hrow : row ∈ t.roles) (hids : account.roleIds = [row.id]) : t.rolesOf account = [row] := by
  rw [rolesOf, hids, ← filter_key h.nodup hrow rfl]
  congr 1
  funext other
  rw [List.contains_cons, List.contains_nil, Bool.or_false]

/-- What an account may do after the bootstrap, from the roles it had before. -/
theorem bootstrapped_scope (ht : t.Linked) (hmem : account ∈ t.accounts) :
    effectiveScope (t.bootstrapRbac.asUser (t.settle t.bootstrapRbac account)) =
      if t.rolesOf account = [] then
        t.invitedScope (defaultName account.role) account.companyDomain
      else rolesScope account.companyDomain (t.keptRoles account) := by
  obtain ⟨hcompletes, -⟩ := bootstrap_completes ht
  by_cases hroles : t.rolesOf account = []
  · have hasked : askedFor account ∈ t.asked :=
      List.mem_append_right _ (List.mem_map_of_mem
        (List.mem_filter.mpr ⟨hmem, List.isEmpty_iff.mpr hroles⟩))
    obtain ⟨row, hrow⟩ := hcompletes.found _ hasked
    have hsettle : t.settle t.bootstrapRbac account = { account with roleIds := [row.id] } := by
      have hdefault : t.bootstrapRbac.defaultRole account = some row := hrow
      rw [settle, if_pos (List.isEmpty_iff.mpr hroles), hdefault]
      rfl
    have hsingle : t.bootstrapRbac.rolesOf (t.settle t.bootstrapRbac account) = [row] :=
      rolesOf_single hcompletes.supplied (systemRole_fields hrow).1 (by rw [hsettle])
    rw [if_pos hroles]
    funext key
    rw [effectiveScope_asUser (by rw [hsingle]; exact List.cons_ne_nil _ _), hsingle, hsettle]
    rw [invitedScope, invitedRole]
    rcases hcompletes.systemRole hrow with ⟨old, hold, rfl⟩ | ⟨hnone, id, -, rfl⟩
    · obtain ⟨-, hname, hcompany⟩ := systemRole_fields hold
      have hcompleted : t.completeBy t.asked old = old.completed (defaultName account.role) := by
        rw [completeBy, hname, hcompany]
        exact if_pos ⟨hasked, hold⟩
      have hold' : t.systemRole (defaultName account.role) (some account.companyDomain) =
          some old := hold
      rw [hold', hcompleted]
    · have hnone' : t.systemRole (defaultName account.role) (some account.companyDomain) =
          none := hnone
      have hsame : rolesScope account.companyDomain
            [newRole id (defaultName account.role) (some account.companyDomain)] =
          rolesScope account.companyDomain
            [newRole t.fresh (defaultName account.role) (some account.companyDomain)] :=
        rolesScope_single _ rfl rfl rfl
      rw [hnone']
      exact congrFun hsame key
  · have hkept : t.settle t.bootstrapRbac account = account := by
      rw [settle, if_neg (mt List.isEmpty_iff.mp hroles)]
    have hrows : t.bootstrapRbac.rolesOf account = t.keptRoles account :=
      hcompletes.rolesOf (ht.roleIds account hmem)
    have hne : t.bootstrapRbac.rolesOf account ≠ [] := by
      rw [hrows]
      exact mt List.map_eq_nil_iff.mp hroles
    rw [if_neg hroles, hkept]
    funext key
    rw [effectiveScope_asUser hne, hrows]

end Tables

/-! ### Standing -/

/-- Where an account stands: what it belongs to, and the widest scope of each key. -/
@[ext]
structure Standing where
  companyDomain : String
  role : String
  active : Bool
  dept : Option String
  departmentIds : List Id
  owned : List Id
  scope : PermissionKey → Option Scope

namespace Tables

variable {t t' s : Tables} {item : Invitation}

def standing (t : Tables) (account : Account) : Standing where
  companyDomain := account.companyDomain
  role := account.role
  active := account.active
  dept := truthy account.dept
  departmentIds := account.departmentIds
  owned := (account.ownerships.filter Ownership.active).map Ownership.departmentId
  scope := effectiveScope (t.asUser account)

/-- Where an invitation puts whoever accepts it: the invited role and company, the invited audiences
as memberships, the first as the primary department. -/
def invitedStanding (t : Tables) (item : Invitation) : Standing where
  companyDomain := item.companyDomain
  role := item.role
  active := true
  dept := (t.audience item item.companyDomain).head?.map (·.name)
  departmentIds := (t.audience item item.companyDomain).map (·.id)
  owned := []
  scope := t.invitedScope item.role item.companyDomain

variable {account : Account}

theorem effectiveScope_congr {account' : Account} (hroles : t'.roles = t.roles)
    (hids : account'.roleIds = account.roleIds) (hrole : account'.role = account.role)
    (hcompany : account'.companyDomain = account.companyDomain) :
    effectiveScope (t'.asUser account') = effectiveScope (t.asUser account) := by
  have hrows : t'.rolesOf account' = t.rolesOf account := by
    rw [rolesOf, rolesOf, hroles, hids]
  have happlies : ∀ role : Role,
      role.applies (t'.asUser account') = role.applies (t.asUser account) :=
    fun role => by rw [Role.applies, Role.applies, asUser, asUser, hcompany]
  funext key
  have hassigned : (t'.asUser account').roles = (t.asUser account).roles :=
    congrArg (List.map RoleRow.toRole) hrows
  have hname : (t'.asUser account').role = (t.asUser account).role := hrole
  simp only [effectiveScope, hassigned, hname, happlies]

theorem withAudience_id (item : Invitation) (account : Account) :
    (t.withAudience item account).id = account.id := by
  unfold withAudience
  split
  · rfl
  · rfl

theorem audience_nil (h : item.audienceIds = []) (company : String) :
    t.audience item company = [] := by
  rw [audience, h]
  exact List.filter_eq_nil_iff.mpr fun row _ => by simp

theorem truthy_withAudience (account : Account) :
    truthy (t.withAudience item account).dept = (truthy account.dept).or
      ((t.audience item account.companyDomain).head?.map (·.name)) := by
  unfold withAudience
  split
  · rename_i hnone
    rw [audience_nil (List.isEmpty_iff.mp hnone), List.head?_nil, Option.map_none, Option.or_none]
  · dsimp only
    cases hdept : truthy account.dept with
    | some name =>
      have hname : (name != "") = true := (Option.filter_eq_some_iff.mp hdept).2
      rw [Option.some_or, Option.some_or, truthy, Option.filter_some, if_pos hname]
    | none =>
      rw [Option.none_or, Option.none_or]
      cases (t.audience item account.companyDomain).head? with
      | none => exact hdept
      | some row =>
        rw [Option.map_some, Option.some_or, truthy, Option.filter_some,
          if_pos (bne_iff_ne.mpr row.name_ne_empty)]

theorem standing_withAudience (hroles : t'.roles = s.roles) (account : Account) :
    t'.standing (t.withAudience item account) =
      { s.standing account with
        dept := (truthy account.dept).or
          ((t.audience item account.companyDomain).head?.map (·.name))
        departmentIds := if item.audienceIds = [] then account.departmentIds else
          (t.audience item account.companyDomain).map (·.id) } := by
  have hscope : effectiveScope (t'.asUser (t.withAudience item account)) =
      effectiveScope (s.asUser account) := by
    unfold withAudience
    split
    · exact effectiveScope_congr hroles rfl rfl rfl
    · exact effectiveScope_congr hroles rfl rfl rfl
  rw [standing, hscope, truthy_withAudience]
  unfold withAudience
  cases item.audienceIds with
  | nil => rfl
  | cons id ids => rfl

theorem get_bootstrapped (hs : s.Linked) {uid : Id}
    (hget : Rows.get Account.id uid s.accounts = some account) :
    Rows.get Account.id uid s.bootstrapRbac.accounts =
      some (s.settle s.bootstrapRbac account) := by
  obtain ⟨-, haccounts⟩ := bootstrap_completes hs
  have hsame : ((fun row => row.id == uid) ∘ s.settle s.bootstrapRbac) =
      fun row : Account => row.id == uid := by
    funext row
    rw [Function.comp_apply, settle_id]
  rw [haccounts, Rows.get, List.find?_map, hsame]
  exact congrArg (Option.map _) hget

theorem settled_standing (item : Invitation) (hs : s.Linked) {uid : Id}
    (hget : Rows.get Account.id uid s.accounts = some account) (id : Id) :
    ∃ account', Rows.get Account.id uid ((s.bootstrapRbac.setAccount uid
          (t.withAudience item)).useInvitation id).accounts = some account' ∧
      ((s.bootstrapRbac.setAccount uid (t.withAudience item)).useInvitation id).standing account' =
        { s.standing account with
          dept := (truthy account.dept).or
            ((t.audience item account.companyDomain).head?.map (·.name))
          departmentIds := if item.audienceIds = [] then account.departmentIds else
            (t.audience item account.companyDomain).map (·.id)
          scope := if s.rolesOf account = [] then
              s.invitedScope (defaultName account.role) account.companyDomain
            else rolesScope account.companyDomain (s.keptRoles account) } := by
  obtain rfl : account.id = uid := key_of_get hget
  refine ⟨t.withAudience item (s.settle s.bootstrapRbac account), ?_, ?_⟩
  · exact (get_update (fun row => withAudience_id item row) _).trans
      (by rw [get_bootstrapped hs hget, Option.map_some, settle_id, beq_self_eq_true, if_pos rfl])
  · have hscope := bootstrapped_scope hs (mem_of_get hget)
    obtain ⟨ids, hids⟩ := s.settle_roleIds s.bootstrapRbac account
    rw [hids] at hscope ⊢
    refine (standing_withAudience (s := s.bootstrapRbac) rfl _).trans ?_
    simp only [standing, hscope]

/-! ### A new account -/

theorem defaultName_managed {role : String} (h : role ∈ MANAGED_PRIMARY_ROLES) :
    defaultName role = role := by
  simp only [MANAGED_PRIMARY_ROLES, List.mem_cons, List.not_mem_nil, or_false] at h
  rcases h with rfl | rfl | rfl | rfl
  · rfl
  · rfl
  · rfl
  · rfl

theorem addAccount_linked (ht : t.Linked) (hid : account.id = t.fresh)
    (hroles : account.roleIds = []) : (t.addAccount account).Linked where
  accounts := ht.accounts.append hid
  roles := ⟨ht.roles.nodup, fun row hrow => Nat.lt_succ_of_lt (ht.roles.below row hrow)⟩
  roleIds a ha id hmem := by
    rcases List.mem_append.mp ha with ha | ha
    · exact Nat.lt_succ_of_lt (ht.roleIds a ha id hmem)
    · rw [List.mem_singleton.mp ha, hroles] at hmem
      cases hmem

theorem added_standing (ht : t.Linked) (hrole : item.role ∈ MANAGED_PRIMARY_ROLES) (id : Id)
    (password : String) {added : Tables}
    (hadded : added = t.addAccount (t.invitedAccount item password)) :
    ∃ account', Rows.get Account.id t.fresh ((added.bootstrapRbac.setAccount t.fresh
          (t.withAudience item)).useInvitation id).accounts = some account' ∧
      ((added.bootstrapRbac.setAccount t.fresh (t.withAudience item)).useInvitation id).standing
        account' = t.invitedStanding item := by
  have hlinked : added.Linked := hadded ▸ t.addAccount_linked ht rfl rfl
  have hget : Rows.get Account.id t.fresh added.accounts = some (t.invitedAccount item password) :=
    hadded ▸ ht.accounts.get_append_new rfl
  obtain ⟨account', haccount, hstanding⟩ := settled_standing (t := t) item hlinked hget id
  refine ⟨account', haccount, hstanding.trans ?_⟩
  have hnone : added.rolesOf (t.invitedAccount item password) = [] :=
    List.filter_eq_nil_iff.mpr fun row _ => Bool.false_ne_true
  have hscope : added.invitedScope item.role item.companyDomain =
      t.invitedScope item.role item.companyDomain :=
    invitedScope_congr (hadded ▸ rfl) item.role item.companyDomain
  have hname : defaultName (t.invitedAccount item password).role = item.role :=
    defaultName_managed hrole
  refine Standing.ext rfl rfl rfl (Option.none_or ..) ?_ rfl ?_
  · show (if item.audienceIds = [] then [] else _) = _
    split
    · rename_i hempty
      rw [invitedStanding, audience_nil hempty]
      rfl
    · rfl
  · exact (if_pos hnone).trans (hname ▸ hscope)

theorem provision_eq_accept {id : Id} {secret : String} {now : Nat}
    (hitem : t.liveInvitation id now = some item) (hnone : t.getByEmail item.email = none)
    (ht : t.Linked) : t.provision id secret now = t.accept id secret now := by
  have hlinked : (t.addAccount (t.invitedAccount item secret)).Linked :=
    t.addAccount_linked ht rfl rfl
  have hget := get_bootstrapped hlinked (ht.accounts.get_append_new rfl)
  have hkeys : ((t.addAccount (t.invitedAccount item secret)).bootstrapRbac.accounts.map
      Account.id).Nodup := by
    rw [(bootstrap_frame _).accounts (g := Account.id) fun account ids => rfl]
    exact hlinked.accounts.nodup
  have hsame : (t.addAccount (t.invitedAccount item secret)).bootstrapRbac.setAccount t.fresh
        (t.withInvitedAudience item) =
      (t.addAccount (t.invitedAccount item secret)).bootstrapRbac.setAccount t.fresh
        (t.withAudience item) := by
    obtain ⟨ids, hids⟩ := settle_roleIds (t.addAccount (t.invitedAccount item secret))
      (t.addAccount (t.invitedAccount item secret)).bootstrapRbac (t.invitedAccount item secret)
    rw [hids] at hget
    rw [setAccount, update_key (f := t.withInvitedAudience item) hkeys hget, setAccount,
      update_key (f := t.withAudience item) hkeys hget]
    rfl
  simp only [provision, accept, hitem, hnone, Option.bind_eq_bind, Option.bind_some, hsame]
  rfl

/-! ### An account that was deactivated -/

/-- Of a deactivated account nothing stays that the invitation does not give. -/
structure AsNew (t : Tables) (item : Invitation) (account : Account) : Prop where
  company : account.companyDomain = item.companyDomain
  roles : t.rolesOf account = [] ∨ rolesScope account.companyDomain (t.keptRoles account) =
    t.invitedScope item.role item.companyDomain
  members : item.audienceIds = [] → account.departmentIds = []
  dept : ∀ name, truthy account.dept = some name →
    (t.audience item item.companyDomain).head?.map (·.name) = some name
  owned : ∀ o ∈ account.ownerships, o.active = false

/-- An account as it is when it is invited again, before the bootstrap. -/
def reactivate (t : Tables) (id : Id) (item : Invitation) (password : String) : Tables :=
  t.setAccount id fun account => account.reinvited item password

theorem reactivate_linked (ht : t.Linked) (id : Id) (password : String) :
    (t.reactivate id item password).Linked where
  accounts := ht.accounts.of_map_eq (map_update fun _ _ _ => rfl) (Nat.le_refl _)
  roles := ht.roles
  roleIds a ha i hi := by
    obtain ⟨old, hold, rfl⟩ := mem_update.mp ha
    refine ht.roleIds old hold i ?_
    split at hi
    · exact hi
    · exact hi

theorem asked_reactivate (ht : t.Linked) (hmem : account ∈ t.accounts)
    (hroles : t.rolesOf account ≠ []) (password : String) :
    (t.reactivate account.id item password).asked = t.asked := by
  have hdomains : (t.reactivate account.id item password).domains = t.domains := by
    have hcompanies : (t.reactivate account.id item password).accounts.map Account.companyDomain =
        t.accounts.map Account.companyDomain := setAccount_map fun _ => rfl
    rw [domains, domains, hcompanies]
  have hwithout : (((t.reactivate account.id item password).accounts.filter fun a =>
        ((t.reactivate account.id item password).rolesOf a).isEmpty).map askedFor) =
      (t.accounts.filter fun a => (t.rolesOf a).isEmpty).map askedFor := by
    rw [reactivate, setAccount, update, List.filter_map, List.map_map]
    have hempty : ((fun a => ((t.reactivate account.id item password).rolesOf a).isEmpty) ∘
        fun a : Account => if a.id == account.id then a.reinvited item password else a) =
          fun a => (t.rolesOf a).isEmpty := by
      funext a
      rw [Function.comp_apply]
      split
      · rfl
      · rfl
    refine (congrArg _ (congrArg (List.filter · t.accounts) hempty)).trans ?_
    refine List.map_congr_left fun a ha => ?_
    obtain ⟨hin, hnone⟩ := List.mem_filter.mp ha
    rw [Function.comp_apply, if_neg]
    refine fun heq => hroles ?_
    rw [← List.inj_on_of_nodup_map ht.accounts.nodup hin hmem (beq_iff_eq.mp heq)]
    exact List.isEmpty_iff.mp hnone
  rw [asked, asked, wantedRoles, wantedRoles, hdomains, hwithout]

theorem keptRoles_reactivate (ht : t.Linked) (hmem : account ∈ t.accounts)
    (hroles : t.rolesOf account ≠ []) (password : String) :
    (t.reactivate account.id item password).keptRoles (account.reinvited item password) =
      t.keptRoles account := by
  rw [keptRoles, asked_reactivate ht hmem hroles]
  rfl

/-- Where a deactivated account stands once it has accepted. -/
def returnedStanding (t : Tables) (item : Invitation) (account : Account) : Standing where
  companyDomain := account.companyDomain
  role := item.role
  active := true
  dept := (truthy account.dept).or ((t.audience item account.companyDomain).head?.map (·.name))
  departmentIds := if item.audienceIds = [] then account.departmentIds else
    (t.audience item account.companyDomain).map (·.id)
  owned := (account.ownerships.filter Ownership.active).map Ownership.departmentId
  scope := if t.rolesOf account = [] then t.invitedScope item.role account.companyDomain
    else rolesScope account.companyDomain (t.keptRoles account)

/-- **A deactivated account** that accepts an invitation. -/
theorem reactivated_standing (ht : t.Linked) (hrole : item.role ∈ MANAGED_PRIMARY_ROLES)
    (hmem : account ∈ t.accounts) (id : Id) (password : String) :
    ∃ account', Rows.get Account.id account.id
        (((t.reactivate account.id item password).bootstrapRbac.setAccount account.id
          (t.withAudience item)).useInvitation id).accounts = some account' ∧
      (((t.reactivate account.id item password).bootstrapRbac.setAccount account.id
          (t.withAudience item)).useInvitation id).standing account' =
        t.returnedStanding item account := by
  have hget : Rows.get Account.id account.id (t.reactivate account.id item password).accounts =
      some (account.reinvited item password) := by
    have hkey : ∀ a : Account, (a.reinvited item password).id = a.id := fun _ => rfl
    refine (get_update hkey t.accounts).trans ?_
    rw [ht.accounts.get_mem hmem, Option.map_some, beq_self_eq_true, if_pos rfl]
  obtain ⟨account', haccount, hstanding⟩ :=
    settled_standing (t := t) item (t.reactivate_linked ht account.id password) hget id
  refine ⟨account', haccount, hstanding.trans ?_⟩
  have hrows : (t.reactivate account.id item password).rolesOf (account.reinvited item password) =
      t.rolesOf account := rfl
  have hname : defaultName (account.reinvited item password).role = item.role :=
    defaultName_managed hrole
  refine Standing.ext rfl rfl rfl rfl rfl rfl ?_
  rw [hrows, hname]
  by_cases hroles : t.rolesOf account = []
  · rw [returnedStanding, if_pos hroles, if_pos hroles]
    exact invitedScope_congr rfl item.role account.companyDomain
  · rw [returnedStanding, if_neg hroles, if_neg hroles, keptRoles_reactivate ht hmem hroles]
    rfl

theorem returned_iff (account : Account) :
    t.returnedStanding item account = t.invitedStanding item ↔ t.AsNew item account := by
  constructor
  · intro h
    have hcompany : account.companyDomain = item.companyDomain :=
      congrArg Standing.companyDomain h
    have hdept := congrArg Standing.dept h
    have hids := congrArg Standing.departmentIds h
    have howned := congrArg Standing.owned h
    have hscope := congrArg Standing.scope h
    simp only [returnedStanding, invitedStanding] at hdept hids howned hscope
    refine ⟨hcompany, ?_, fun hempty => ?_, fun name hname => ?_, fun o ho => ?_⟩
    · by_cases hroles : t.rolesOf account = []
      · exact Or.inl hroles
      · rw [if_neg hroles] at hscope
        exact Or.inr (hcompany ▸ hscope)
    · rw [if_pos hempty, audience_nil hempty] at hids
      exact hids
    · rw [hname] at hdept
      exact hdept.symm
    · have hnone := List.filter_eq_nil_iff.mp (List.map_eq_nil_iff.mp howned) o ho
      exact Bool.eq_false_of_not_eq_true hnone
  · intro h
    refine Standing.ext h.company rfl rfl ?_ ?_ ?_ ?_
    · rw [returnedStanding, invitedStanding, h.company]
      dsimp only
      cases hname : truthy account.dept with
      | none => exact Option.none_or
      | some name =>
        exact (h.dept name hname).symm
    · rw [returnedStanding, invitedStanding, h.company]
      split
      · rename_i hempty
        rw [h.members hempty, audience_nil hempty]
        rfl
      · rfl
    · refine List.map_eq_nil_iff.mpr (List.filter_eq_nil_iff.mpr fun o ho => ?_)
      rw [h.owned o ho]
      exact Bool.false_ne_true
    · rw [returnedStanding, invitedStanding]
      dsimp only
      split
      · rw [h.company]
      · rename_i hroles
        rcases h.roles with hnone | hsame
        · exact absurd hnone hroles
        · exact hsame

def without (t : Tables) (email : Email) : Tables :=
  { t with accounts := t.accounts.filter fun account => account.email != email }

theorem without_linked (ht : t.Linked) (email : Email) : (t.without email).Linked where
  accounts := ht.accounts.filter _
  roles := ht.roles
  roleIds a ha := ht.roleIds a (List.mem_of_mem_filter ha)

theorem provisioned_standing (ht : t.Linked) {id : Id} {now : Nat} (secret : String)
    (hitem : t.liveInvitation id now = some item) (hrole : item.role ∈ MANAGED_PRIMARY_ROLES) :
    ∃ t₂ account₂, (t.without item.email).provision id secret now = some (t.fresh, t₂) ∧
      Rows.get Account.id t.fresh t₂.accounts = some account₂ ∧
        t₂.standing account₂ = t.invitedStanding item := by
  have hlinked := t.without_linked ht item.email
  have hitem' : (t.without item.email).liveInvitation id now = some item := hitem
  have hnone : (t.without item.email).getByEmail item.email = none := by
    refine List.find?_eq_none.mpr fun account haccount => ?_
    have hne := (List.mem_filter.mp haccount).2
    rw [bne_iff_ne] at hne
    exact mt beq_iff_eq.mp hne
  obtain ⟨account₂, haccount, hstanding⟩ := added_standing hlinked hrole id secret rfl
  refine ⟨_, account₂, ?_, haccount, hstanding⟩
  rw [provision_eq_accept hitem' hnone hlinked]
  simp only [accept, hitem', hnone, Option.bind_eq_bind, Option.bind_some]
  rfl

/-- The tables, with invitations as `create_invitation` stores them. -/
structure Sound (t : Tables) : Prop extends t.Linked where
  invited : ∀ item ∈ t.invitations, item.role ∈ MANAGED_PRIMARY_ROLES

/-- **An accepted invitation** gives what was invited, as the other route does, exactly where the
account is a new one or keeps nothing else. -/
theorem accept_as_invited_iff (ht : t.Sound) {id uid : Id} {password : String} {now : Nat}
    (h : t.accept id password now = some (uid, t')) (secret : String) :
    ∃ item account' t₂ account₂, t.liveInvitation id now = some item ∧
      Rows.get Account.id uid t'.accounts = some account' ∧
      (t.without item.email).provision id secret now = some (t.fresh, t₂) ∧
      Rows.get Account.id t.fresh t₂.accounts = some account₂ ∧
      (t'.standing account' = t.invitedStanding item ∧
          t'.standing account' = t₂.standing account₂ ↔
        ∀ account, t.getByEmail item.email = some account → t.AsNew item account) := by
  simp only [accept, Option.bind_eq_bind, Option.bind_eq_some_iff] at h
  obtain ⟨item, hitem, h⟩ := h
  have hrole := ht.invited item (mem_of_get (Option.filter_eq_some_iff.mp hitem).1)
  obtain ⟨t₂, account₂, hprovision, haccount₂, hstanding₂⟩ :=
    provisioned_standing ht.toLinked secret hitem hrole
  split at h
  · rename_i account hemail
    simp only [Option.bind_eq_some_iff, Option.guard_eq_some', exists_const, Option.some.injEq,
      Prod.mk.injEq] at h
    obtain ⟨-, rfl, rfl⟩ := h
    obtain ⟨account', haccount, hstanding⟩ :=
      reactivated_standing ht.toLinked hrole (mem_of_get hemail) id password
    refine ⟨item, account', t₂, account₂, hitem, haccount, hprovision, haccount₂, ?_⟩
    rw [hstanding₂, and_self]
    refine (iff_of_eq (congrArg (· = _) hstanding)).trans ((t.returned_iff account).trans ?_)
    constructor
    · intro h account' haccount'
      rw [hemail] at haccount'
      cases haccount'
      exact h
    · exact fun h => h account hemail
  · rename_i hnone
    obtain ⟨rfl, rfl⟩ := h
    obtain ⟨account', haccount, hstanding⟩ := added_standing ht.toLinked hrole id password rfl
    refine ⟨item, account', t₂, account₂, hitem, haccount, hprovision, haccount₂, ?_⟩
    refine iff_of_true ⟨hstanding, hstanding.trans hstanding₂.symm⟩ fun account hemail => ?_
    rw [hnone] at hemail
    cases hemail

end Tables

/-! ### Somebody comes back -/

section Example

def staffInvitation : Invitation :=
  ⟨2, ⟨"cat", "acme.test"⟩, "Staff", "acme.test", [], 10, 0, false, false⟩

def inviting (accounts : List Account) : Tables where
  accounts := accounts
  departments := []
  roles := [⟨1, "CEO", some "acme.test", true, true, defaultPermissions "CEO"⟩]
  invitations := [staffInvitation]
  fresh := 3

def leaver : Account :=
  ⟨0, ⟨"cat", "acme.test"⟩, Auth.getPasswordHash "secret", "acme.test", none, "CEO", false, [1], [],
    []⟩

def trainee : Account := { leaver with role := "Staff", roleIds := [] }

theorem inviting_roles (accounts : List Account) :
    Rows.Supplied RoleRow.id (inviting accounts).roles (inviting accounts).fresh :=
  ⟨List.nodup_singleton _, fun row hrow => by
    rw [List.mem_singleton.mp hrow]
    exact Nat.lt_of_sub_eq_succ rfl⟩

theorem inviting_sound {accounts : List Account} (h : accounts = [trainee] ∨ accounts = [leaver]) :
    (inviting accounts).Sound where
  accounts := by rcases h with rfl | rfl <;> exact ⟨by decide, by decide⟩
  roles := inviting_roles accounts
  roleIds := by rcases h with rfl | rfl <;> decide
  invited item hitem := by
    rw [List.mem_singleton.mp hitem]
    decide

theorem inviting_accepted {accounts : List Account} (h : accounts = [trainee] ∨ accounts = [leaver]) :
    ((inviting accounts).accept 2 "fresh" 5).isSome = true := by
  rcases h with rfl | rfl
  · decide +kernel
  · decide +kernel

/-- Who left as they came gets what the invitation says. -/
theorem trainee_as_invited : ∃ uid t' item account',
    (inviting [trainee]).accept 2 "fresh" 5 = some (uid, t') ∧
      (inviting [trainee]).liveInvitation 2 5 = some item ∧
      Rows.get Account.id uid t'.accounts = some account' ∧
      t'.standing account' = (inviting [trainee]).invitedStanding item := by
  obtain ⟨⟨uid, t'⟩, haccept⟩ := Option.isSome_iff_exists.mp (inviting_accepted (Or.inl rfl))
  obtain ⟨item, account', _, _, hitem, haccount, _, _, hiff⟩ :=
    Tables.accept_as_invited_iff (inviting_sound (Or.inl rfl)) haccept "secret"
  refine ⟨uid, t', item, account', haccept, hitem, haccount, (hiff.mpr fun account h => ?_).1⟩
  have hlive : (inviting [trainee]).liveInvitation 2 5 = some staffInvitation := by decide +kernel
  obtain rfl : staffInvitation = item := Option.some.inj (hlive.symm.trans hitem)
  obtain rfl : trainee = account := Option.some.inj h
  refine ⟨rfl, Or.inl (by decide), fun _ => rfl, fun _ hname => ?_, List.forall_mem_nil _⟩
  cases hname

def returned : Id × Tables :=
  ((inviting [leaver]).accept 2 "fresh" 5).get (inviting_accepted (Or.inr rfl))

theorem returned_eq : (inviting [leaver]).accept 2 "fresh" 5 = some (returned.1, returned.2) :=
  (Option.some_get (inviting_accepted (Or.inr rfl))).symm

/-- **More than was invited**: the roles of the earlier life stay. -/
theorem leaver_not_as_invited : ¬ ∀ (t t' : Tables) (id uid : Id) (password : String) (now : Nat)
    (item : Invitation) (account' : Account), t.Sound → t.accept id password now = some (uid, t') →
    t.liveInvitation id now = some item → Rows.get Account.id uid t'.accounts = some account' →
    t'.standing account' = t.invitedStanding item := by
  intro hall
  obtain ⟨account', haccount⟩ : ∃ account',
      Rows.get Account.id returned.1 returned.2.accounts = some account' ∧
        effectiveScope (returned.2.asUser account') .userManage = some .company := by
    decide +kernel
  have hstanding := hall (inviting [leaver]) returned.2 2 returned.1 "fresh" 5 staffInvitation
    account' (inviting_sound (Or.inr rfl)) returned_eq (by decide +kernel) haccount.1
  have hscope : some Scope.company =
      (inviting [leaver]).invitedScope "Staff" "acme.test" .userManage :=
    haccount.2.symm.trans (congrFun (congrArg Standing.scope hstanding) .userManage)
  revert hscope
  decide +kernel

end Example

end QnscKb.Users
