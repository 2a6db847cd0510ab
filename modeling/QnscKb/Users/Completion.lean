import QnscKb.Users.Bootstrap

/-!
# Users — Completion

What `bootstrap_rbac` (`src/domain/rbac.py`) makes of the roles and of who has them.
-/

namespace QnscKb.Users
open Access Rows

/-! ### Roles -/

/-- A role `ensure_role` creates. -/
def newRole (id : Id) (name : String) (company : Option String) : RoleRow :=
  RoleRow.completed ⟨id, name, company, true, true, []⟩ name

theorem completed_completed (row : RoleRow) (name : String) :
    (row.completed name).completed name = row.completed name := by
  have hheld : ∀ p ∈ defaultPermissions name,
      (row.completed name).permissions.any (fun held => held.key == p.key) = true := by
    intro p hp
    rw [RoleRow.completed, List.any_append, Bool.or_eq_true]
    by_cases h : (row.permissions.any fun held => held.key == p.key) = true
    · exact Or.inl h
    · refine Or.inr (List.any_eq_true.mpr ⟨p, List.mem_filter.mpr ⟨hp, ?_⟩, beq_self_eq_true _⟩)
      rw [Bool.not_eq_true] at h
      rw [h, Bool.not_false]
  have hnone : (defaultPermissions name).filter (fun p =>
      !(row.completed name).permissions.any fun held => held.key == p.key) = [] := by
    refine List.filter_eq_nil_iff.mpr fun p hp => ?_
    rw [hheld p hp]
    exact Bool.false_ne_true
  rw [RoleRow.completed, hnone, List.append_nil]

namespace Tables

variable {t s : Tables}

/-- A role once the names are asked for. -/
def completeBy (t : Tables) (asked : List (String × Option String)) (row : RoleRow) : RoleRow :=
  if (row.name, row.companyDomain) ∈ asked ∧ t.systemRole row.name row.companyDomain = some row then
    row.completed row.name
  else row

theorem completeBy_keeps (asked : List (String × Option String)) (row : RoleRow) :
    (t.completeBy asked row).id = row.id ∧ (t.completeBy asked row).name = row.name ∧
      (t.completeBy asked row).companyDomain = row.companyDomain ∧
        (t.completeBy asked row).active = row.active := by
  unfold completeBy
  split
  · exact ⟨rfl, rfl, rfl, rfl⟩
  · exact ⟨rfl, rfl, rfl, rfl⟩

variable {company : Option String}

variable {name : String} {row : RoleRow}

theorem completeBy_cons {asked : List (String × Option String)}
    (h : t.systemRole name company ≠ some row) :
    t.completeBy ((name, company) :: asked) row = t.completeBy asked row := by
  have hiff : ((row.name, row.companyDomain) ∈ (name, company) :: asked ∧
        t.systemRole row.name row.companyDomain = some row) ↔
      ((row.name, row.companyDomain) ∈ asked ∧
        t.systemRole row.name row.companyDomain = some row) := by
    rw [List.mem_cons, or_and_right]
    refine or_iff_right fun ⟨heq, hrole⟩ => h ?_
    obtain ⟨rfl, rfl⟩ := Prod.mk.inj heq
    exact hrole
  simp only [completeBy, hiff]

theorem systemRole_fields (h : t.systemRole name company = some row) :
    row ∈ t.roles ∧ row.name = name ∧ row.companyDomain = company := by
  have hp := List.find?_some h
  rw [Bool.and_eq_true, beq_iff_eq, beq_iff_eq] at hp
  exact ⟨List.mem_of_find?_eq_some h, hp⟩

theorem find_map_role {f : RoleRow → RoleRow} {rows : List RoleRow}
    (hf : ∀ row, (f row).name = row.name ∧ (f row).companyDomain = row.companyDomain)
    (name : String) (company : Option String) :
    (rows.map f).find? (fun row => row.name == name && row.companyDomain == company) =
      (rows.find? fun row => row.name == name && row.companyDomain == company).map f := by
  rw [List.find?_map]
  congr 2
  funext row
  rw [Function.comp_apply, (hf row).1, (hf row).2]

theorem systemRole_ensureRole (name' : String) (company' : Option String)
    (h : t.systemRole name company = some row) :
    ∃ row', (t.ensureRole name' company').systemRole name company = some row' ∧
      row'.id = row.id := by
  unfold ensureRole
  split
  · rename_i found hfound
    refine ⟨_, (find_map_role (fun other => ?_) name company).trans
      (congrArg (Option.map _) h), ?_⟩
    · split
      · exact ⟨rfl, rfl⟩
      · exact ⟨rfl, rfl⟩
    · dsimp only
      split
      · rfl
      · rfl
  · exact ⟨row, by rw [systemRole, List.find?_append]; exact congrArg (Option.or · _) h, rfl⟩

theorem ensureRole_accounts (name : String) (company : Option String) :
    (t.ensureRole name company).accounts = t.accounts := by
  unfold ensureRole
  split
  · rfl
  · rfl

theorem ensureRoles_accounts (wanted : List (String × Option String)) :
    (t.ensureRoles wanted).accounts = t.accounts :=
  foldl_keeps (P := fun s : Tables => s.accounts = t.accounts)
    (fun _ x hs => (ensureRole_accounts x.1 x.2).trans hs) wanted rfl

theorem systemRole_ensureRole_self (name : String) (company : Option String) :
    ∃ row, (t.ensureRole name company).systemRole name company = some row := by
  cases h : t.systemRole name company with
  | some row =>
    obtain ⟨row', hrow', -⟩ := systemRole_ensureRole name company h
    exact ⟨row', hrow'⟩
  | none =>
    refine ⟨newRole t.fresh name company, ?_⟩
    rw [ensureRole, h, systemRole, List.find?_append]
    have hnone : (t.roles.find? fun row => row.name == name && row.companyDomain == company) =
        none := h
    rw [hnone, List.find?_cons_of_pos]
    · rfl
    · simp [RoleRow.completed]

/-! ### The roles in the end -/

/-- The second tables have the roles of the first once the names are asked for, and the roles that
were missing. -/
structure Completes (t s : Tables) (asked : List (String × Option String)) : Prop where
  fresh : t.fresh ≤ s.fresh
  supplied : Supplied RoleRow.id s.roles s.fresh
  roles : ∃ new, s.roles = t.roles.map (t.completeBy asked) ++ new ∧
    ∀ row ∈ new, ∃ id name company, row = newRole id name company ∧ t.fresh ≤ id ∧
      t.systemRole name company = none
  found : ∀ x ∈ asked, ∃ row, s.systemRole x.1 x.2 = some row

namespace Completes

variable {asked asked' : List (String × Option String)}

theorem refl (h : Supplied RoleRow.id t.roles t.fresh) : t.Completes t [] where
  fresh := Nat.le_refl _
  supplied := h
  roles := by
    refine ⟨[], ?_, fun row hrow => by cases hrow⟩
    have hsame : t.completeBy [] = id := by
      funext row
      exact if_neg fun h => by cases h.1
    rw [hsame, List.map_id, List.append_nil]
  found x hx := by cases hx

theorem congr (h : t.Completes s asked) (heq : ∀ x, x ∈ asked ↔ x ∈ asked') :
    t.Completes s asked' where
  fresh := h.fresh
  supplied := h.supplied
  roles := by
    have hsame : t.completeBy asked = t.completeBy asked' := by
      funext row
      simp only [completeBy, heq]
    exact hsame ▸ h.roles
  found x hx := h.found x ((heq x).mpr hx)

theorem systemRole (h : t.Completes s asked) {name : String} {company : Option String}
    {row : RoleRow} (hrow : s.systemRole name company = some row) :
    (∃ old, t.systemRole name company = some old ∧ row = t.completeBy asked old) ∨
      t.systemRole name company = none ∧ ∃ id, t.fresh ≤ id ∧ row = newRole id name company := by
  obtain ⟨new, hroles, hnew⟩ := h.roles
  rw [Tables.systemRole, hroles, List.find?_append, find_map_role fun row =>
    ⟨(t.completeBy_keeps asked row).2.1, (t.completeBy_keeps asked row).2.2.1⟩] at hrow
  cases hold : t.systemRole name company with
  | some old =>
    rw [Tables.systemRole] at hold
    rw [hold] at hrow
    exact Or.inl ⟨old, rfl, (Option.some.inj hrow).symm⟩
  | none =>
    rw [Tables.systemRole] at hold
    rw [hold] at hrow
    obtain ⟨id, name', company', rfl, hid, -⟩ := hnew row (List.mem_of_find?_eq_some hrow)
    have hp := List.find?_some hrow
    rw [Bool.and_eq_true, beq_iff_eq, beq_iff_eq] at hp
    obtain ⟨rfl, rfl⟩ := hp
    exact Or.inr ⟨rfl, id, hid, rfl⟩

theorem rolesOf (h : t.Completes s asked) {account : Account}
    (hids : ∀ id ∈ account.roleIds, id < t.fresh) :
    s.rolesOf account = (t.rolesOf account).map (t.completeBy asked) := by
  obtain ⟨new, hroles, hnew⟩ := h.roles
  have hnone : new.filter (fun row => account.roleIds.contains row.id) = [] := by
    refine List.filter_eq_nil_iff.mpr fun row hrow => ?_
    obtain ⟨id, name, company, rfl, hid, -⟩ := hnew row hrow
    rw [List.contains_iff_mem]
    exact fun hmem => absurd (hids id hmem) (Nat.not_lt.mpr hid)
  rw [Tables.rolesOf, hroles, List.filter_append, hnone, List.append_nil, List.filter_map]
  congr 2
  funext row
  rw [Function.comp_apply, (t.completeBy_keeps asked row).1]

theorem complete_found (h : t.Completes s asked) (ht : Supplied RoleRow.id t.roles t.fresh)
    {name : String} {company : Option String} {found : RoleRow}
    (hfound : s.systemRole name company = some found) :
    ∃ new, update (fun other => other.id == found.id) (RoleRow.completed · name) s.roles =
        t.roles.map (t.completeBy ((name, company) :: asked)) ++ new ∧
      ∀ row ∈ new, ∃ id name company, row = newRole id name company ∧ t.fresh ≤ id ∧
        t.systemRole name company = none := by
  obtain ⟨new, hroles, hnew⟩ := h.roles
  refine ⟨new, ?_, hnew⟩
  rw [hroles, update, List.map_append, List.map_map]
  refine congrArg₂ (· ++ ·) (List.map_congr_left fun row hrow => ?_) ?_
  · -- Of the roles there were, the one of the name is completed, and no other has its id.
    simp only [Function.comp_apply, (t.completeBy_keeps asked row).1, beq_iff_eq]
    rcases h.systemRole hfound with ⟨old, hold, rfl⟩ | ⟨hnone, id, hid, rfl⟩
    · obtain ⟨hmem, rfl, rfl⟩ := systemRole_fields hold
      rw [(t.completeBy_keeps asked old).1]
      by_cases hsame : row.id = old.id
      · obtain rfl : row = old := List.inj_on_of_nodup_map ht.nodup hrow hmem hsame
        rw [if_pos rfl, completeBy, completeBy, if_pos (show _ ∧ _ from ⟨List.mem_cons_self, hold⟩)]
        split
        · exact completed_completed row row.name
        · rfl
      · rw [if_neg hsame, completeBy_cons fun heq => hsame ?_]
        rw [hold] at heq
        exact (congrArg RoleRow.id (Option.some.inj heq)).symm
    · have hne : row.id ≠ (newRole id name company).id :=
        Nat.ne_of_lt (Nat.lt_of_lt_of_le (ht.below row hrow) hid)
      rw [if_neg hne, completeBy_cons fun heq => ?_]
      rw [hnone] at heq
      cases heq
  · -- A role that is new has every permission already.
    refine (List.map_congr_left fun row hrow => ?_).trans (List.map_id' new)
    split
    · rename_i hsame
      have hmem : row ∈ s.roles := hroles ▸ List.mem_append_right _ hrow
      obtain ⟨hin, hname, -⟩ := systemRole_fields hfound
      obtain rfl : row = found :=
        List.inj_on_of_nodup_map h.supplied.nodup hmem hin (beq_iff_eq.mp hsame)
      obtain ⟨id, name', company', rfl, -⟩ := hnew row hrow
      obtain rfl : name' = name := hname
      exact completed_completed _ _
    · rfl

theorem ensureRole (h : t.Completes s asked) (ht : Supplied RoleRow.id t.roles t.fresh)
    (name : String) (company : Option String) :
    t.Completes (s.ensureRole name company) ((name, company) :: asked) where
  fresh := Nat.le_trans h.fresh (s.ensureRole_frame name company).fresh
  supplied := (s.ensureRole_frame name company).roles h.supplied
  roles := by
    cases hfound : s.systemRole name company with
    | some found =>
      rw [Tables.ensureRole, hfound]
      exact h.complete_found ht hfound
    | none =>
      obtain ⟨new, hroles, hnew⟩ := h.roles
      have hnone : t.systemRole name company = none := by
        rw [Tables.systemRole, hroles, List.find?_append, find_map_role fun row =>
          ⟨(t.completeBy_keeps asked row).2.1, (t.completeBy_keeps asked row).2.2.1⟩,
          Option.or_eq_none_iff, Option.map_eq_none_iff] at hfound
        exact hfound.1
      have hsame : ∀ row ∈ t.roles,
          t.completeBy asked row = t.completeBy ((name, company) :: asked) row := by
        intro row _
        rw [completeBy_cons fun heq => ?_]
        rw [hnone] at heq
        cases heq
      rw [Tables.ensureRole, hfound, hroles, List.map_congr_left hsame, List.append_assoc]
      refine ⟨_, rfl, fun row hrow => ?_⟩
      rcases List.mem_append.mp hrow with hrow | hrow
      · exact hnew row hrow
      · exact ⟨s.fresh, name, company, List.mem_singleton.mp hrow, h.fresh, hnone⟩
  found x hx := by
    rcases List.mem_cons.mp hx with rfl | hx
    · exact systemRole_ensureRole_self name company
    · obtain ⟨row, hrow⟩ := h.found x hx
      obtain ⟨row', hrow', -⟩ := systemRole_ensureRole name company hrow
      exact ⟨row', hrow'⟩

theorem ensureRoles (h : t.Completes s asked) (ht : Supplied RoleRow.id t.roles t.fresh)
    (wanted : List (String × Option String)) :
    t.Completes (s.ensureRoles wanted) (wanted.reverse ++ asked) := by
  induction wanted generalizing s asked with
  | nil => exact h
  | cons x wanted ih =>
    rw [List.reverse_cons, List.append_assoc]
    exact ih (h.ensureRole ht x.1 x.2)

end Completes

/-! ### The accounts in the end -/

/-- What the bootstrap asks for on behalf of an account without roles. -/
def askedFor (account : Account) : String × Option String :=
  (defaultName account.role, some account.companyDomain)

def asked (t : Tables) : List (String × Option String) :=
  t.wantedRoles ++ (t.accounts.filter fun account => (t.rolesOf account).isEmpty).map askedFor

/-- An account with its default role of the second tables, where it has no role in the first. -/
def settle (t s : Tables) (account : Account) : Account :=
  if (t.rolesOf account).isEmpty then
    { account with roleIds := (s.defaultRole account).toList.map RoleRow.id }
  else account

theorem settle_roleIds (t s : Tables) (account : Account) :
    ∃ ids, t.settle s account = { account with roleIds := ids } := by
  unfold settle
  split
  · exact ⟨_, rfl⟩
  · exact ⟨account.roleIds, rfl⟩

theorem settle_id (account : Account) : (t.settle s account).id = account.id := by
  obtain ⟨ids, hids⟩ := t.settle_roleIds s account
  rw [hids]

/-- The accounts, with roles that exist. -/
structure Linked (t : Tables) : Prop where
  accounts : Supplied Account.id t.accounts t.fresh
  roles : Supplied RoleRow.id t.roles t.fresh
  roleIds : ∀ account ∈ t.accounts, ∀ id ∈ account.roleIds, id < t.fresh

/-- The backfill has come so far: the accounts before are settled, those after are as they were. -/
structure Backfilled (t s : Tables) (done todo : List Account)
    (asked : List (String × Option String)) : Prop where
  completes : t.Completes s asked
  accounts : s.accounts = done.map (t.settle s) ++ todo
  all : t.accounts = done ++ todo
  covered : ∀ account ∈ done, (t.rolesOf account).isEmpty = true → askedFor account ∈ asked

namespace Backfilled

variable {done todo : List Account} {account : Account} {asked : List (String × Option String)}

theorem step_kept (h : t.Backfilled s done (account :: todo) asked)
    (hroles : (t.rolesOf account).isEmpty = false) :
    t.Backfilled s (done ++ [account]) todo asked where
  completes := h.completes
  accounts := by
    have hkept : t.settle s account = account := by
      rw [settle, hroles]
      rfl
    rw [List.map_append, List.map_singleton, hkept, List.append_assoc]
    exact h.accounts
  all := by rw [h.all, List.append_assoc, List.singleton_append]
  covered a ha hnone := by
    rcases List.mem_append.mp ha with ha | ha
    · exact h.covered a ha hnone
    · rw [List.mem_singleton.mp ha, hroles] at hnone
      cases hnone

theorem settle_ensureRole (h : t.Backfilled s done todo asked) {a : Account} (ha : a ∈ done)
    (name : String) (company : Option String) :
    t.settle (s.ensureRole name company) a = t.settle s a := by
  unfold settle
  split
  · rename_i hnone
    obtain ⟨row, hrow⟩ := h.completes.found _ (h.covered a ha hnone)
    obtain ⟨row', hrow', hid⟩ := systemRole_ensureRole name company hrow
    have hs : s.defaultRole a = some row := hrow
    have hs' : (s.ensureRole name company).defaultRole a = some row' := hrow'
    rw [hs, hs', Option.toList_some, Option.toList_some, List.map_singleton, List.map_singleton,
      hid]
  · rfl

theorem step_given (ht : t.Linked) (h : t.Backfilled s done (account :: todo) asked)
    (hroles : (t.rolesOf account).isEmpty = true) {row : RoleRow}
    (hrow : (s.ensureRole (askedFor account).1 (askedFor account).2).defaultRole account =
      some row) :
    t.Backfilled ((s.ensureRole (askedFor account).1 (askedFor account).2).giveRole account.id
      (some row)) (done ++ [account]) todo (askedFor account :: asked) where
  completes :=
    have hnext := h.completes.ensureRole ht.roles (askedFor account).1 (askedFor account).2
    ⟨hnext.fresh, hnext.supplied, hnext.roles, hnext.found⟩
  accounts := by
    have hnodup : ((done ++ account :: todo).map Account.id).Nodup := h.all ▸ ht.accounts.nodup
    rw [List.map_append, List.map_cons, List.nodup_append, List.nodup_cons] at hnodup
    have hdone : ∀ a ∈ done.map (t.settle s), a.id ≠ account.id := by
      intro a ha
      obtain ⟨a, hmem, rfl⟩ := List.mem_map.mp ha
      rw [settle_id]
      exact hnodup.2.2 _ (List.mem_map_of_mem hmem) _ List.mem_cons_self
    have htodo : ∀ a ∈ todo, a.id ≠ account.id := fun a ha heq =>
      hnodup.2.1.1 (heq ▸ List.mem_map_of_mem ha)
    have hthis : t.settle ((s.ensureRole (askedFor account).1 (askedFor account).2).giveRole
        account.id (some row)) account = { account with roleIds := [row.id] } := by
      have hgiven : ((s.ensureRole (askedFor account).1 (askedFor account).2).giveRole
          account.id (some row)).defaultRole account = some row := hrow
      rw [settle, if_pos hroles, hgiven]
      rfl
    have hbefore : done.map (t.settle ((s.ensureRole (askedFor account).1
        (askedFor account).2).giveRole account.id (some row))) = done.map (t.settle s) :=
      List.map_congr_left fun a ha => h.settle_ensureRole ha _ _
    have haccounts : (s.ensureRole (askedFor account).1 (askedFor account).2).accounts =
        s.accounts := ensureRole_accounts _ _
    rw [List.map_append, List.map_singleton, hthis, hbefore, giveRole, setAccount, haccounts,
      h.accounts, update, List.map_append, List.map_cons, if_pos (beq_self_eq_true _)]
    refine (congrArg₂ (fun before after => before ++ { account with roleIds := [row.id] } :: after)
      (update_absent hdone) (update_absent htodo)).trans ?_
    rw [List.append_assoc, List.singleton_append]
  all := by rw [h.all, List.append_assoc, List.singleton_append]
  covered a ha hnone := by
    rcases List.mem_append.mp ha with ha | ha
    · exact List.mem_cons_of_mem _ (h.covered a ha hnone)
    · rw [List.mem_singleton.mp ha]
      exact List.mem_cons_self

theorem finish (ht : t.Linked) (h : t.Backfilled s done todo asked) :
    ∃ asked', t.Backfilled (todo.foldl backfill s) (done ++ todo) [] asked' ∧
      ∀ x, x ∈ asked' ↔ x ∈ asked ∨
        x ∈ (todo.filter fun account => (t.rolesOf account).isEmpty).map askedFor := by
  induction todo generalizing s done asked with
  | nil =>
    refine ⟨asked, ?_, fun x => by simp⟩
    rw [List.append_nil]
    exact h
  | cons account todo ih =>
    have hmem : account ∈ t.accounts :=
      h.all ▸ List.mem_append_right _ List.mem_cons_self
    have hempty : (s.rolesOf account).isEmpty = (t.rolesOf account).isEmpty := by
      rw [h.completes.rolesOf (ht.roleIds account hmem), List.isEmpty_map]
    rw [List.foldl_cons]
    cases hroles : (t.rolesOf account).isEmpty with
    | false =>
      have hsame : s.backfill account = s := by
        rw [backfill, hempty, hroles]
        rfl
      obtain ⟨asked', hnext, hasked⟩ := ih (h.step_kept hroles)
      refine ⟨asked', ?_, fun x => ?_⟩
      · rw [hsame]
        rwa [List.append_assoc, List.singleton_append] at hnext
      · rw [hasked, List.filter_cons, if_neg (by rw [hroles]; exact Bool.false_ne_true)]
    | true =>
      obtain ⟨row, hrow⟩ :=
        s.systemRole_ensureRole_self (askedFor account).1 (askedFor account).2
      have hgiven : s.backfill account = (s.ensureRole (askedFor account).1
          (askedFor account).2).giveRole account.id (some row) := by
        rw [backfill, hempty, if_pos hroles]
        exact congrArg (giveRole _ _) hrow
      obtain ⟨asked', hnext, hasked⟩ := ih (h.step_given ht hroles hrow)
      refine ⟨asked', ?_, fun x => ?_⟩
      · rw [hgiven]
        rwa [List.append_assoc, List.singleton_append] at hnext
      · rw [hasked, List.filter_cons, if_pos hroles, List.map_cons, List.mem_cons,
          List.mem_cons, or_left_comm, or_assoc]

end Backfilled

/-- **The bootstrap** asks for its names, and settles every account. -/
theorem bootstrap_completes (ht : t.Linked) :
    t.Completes t.bootstrapRbac t.asked ∧
      t.bootstrapRbac.accounts = t.accounts.map (t.settle t.bootstrapRbac) := by
  have hstart : t.Backfilled (t.ensureRoles t.wantedRoles) [] t.accounts
      (t.wantedRoles.reverse ++ []) :=
    ⟨(Completes.refl ht.roles).ensureRoles ht.roles _, ensureRoles_accounts _, rfl,
      fun a ha => by cases ha⟩
  obtain ⟨names, hend, hnames⟩ := hstart.finish ht
  refine ⟨hend.completes.congr fun x => ?_, ?_⟩
  · rw [hnames, asked, List.append_nil, List.mem_reverse, List.mem_append]
  · exact hend.accounts.trans (List.append_nil _)

end Tables

end QnscKb.Users
