import QnscKb.Users.Requests

/-!
# Users — Bootstrap

What `bootstrap_rbac` (`src/domain/rbac.py`) leaves alone.
-/

namespace QnscKb.Users
open Access Rows

variable {t t' t'' : Tables}

theorem foldl_keeps {τ α : Type} {f : τ → α → τ} {P : τ → Prop} (h : ∀ s x, P s → P (f s x))
    (l : List α) {s : τ} (hs : P s) : P (l.foldl f s) := by
  induction l generalizing s with
  | nil => exact hs
  | cons x l ih => exact ih (h s x hs)

/-- A reading of accounts that does not look at their roles. -/
def Roleless {α : Type} (g : Account → α) : Prop :=
  ∀ account ids, g { account with roleIds := ids } = g account

/-- From the first tables to the second nothing is written but roles, and who has them. -/
structure RolesOnly (t t' : Tables) : Prop where
  accounts : ∀ {α : Type} {g : Account → α}, Roleless g → t'.accounts.map g = t.accounts.map g
  departments : t'.departments = t.departments
  invitations : t'.invitations = t.invitations
  fresh : t.fresh ≤ t'.fresh
  roles : Supplied RoleRow.id t.roles t.fresh → Supplied RoleRow.id t'.roles t'.fresh

namespace RolesOnly

theorem refl (t : Tables) : RolesOnly t t where
  accounts _ := rfl
  departments := rfl
  invitations := rfl
  fresh := Nat.le_refl _
  roles := id

theorem trans (h : RolesOnly t t') (h' : RolesOnly t' t'') : RolesOnly t t'' where
  accounts hg := (h'.accounts hg).trans (h.accounts hg)
  departments := h'.departments.trans h.departments
  invitations := h'.invitations.trans h.invitations
  fresh := Nat.le_trans h.fresh h'.fresh
  roles := h'.roles ∘ h.roles

end RolesOnly

namespace Tables

theorem setAccount_map {α : Type} {g : Account → α} {id : Id} {f : Account → Account}
    (h : ∀ account, g (f account) = g account) :
    (t.setAccount id f).accounts.map g = t.accounts.map g :=
  map_update fun account _ _ => h account

theorem ensureRole_frame (t : Tables) (name : String) (company : Option String) :
    RolesOnly t (t.ensureRole name company) := by
  unfold ensureRole
  split
  · exact ⟨fun _ => rfl, rfl, rfl, Nat.le_refl _, fun h =>
    h.of_map_eq (map_update fun _ _ _ => rfl) (Nat.le_refl _)⟩
  · exact ⟨fun _ => rfl, rfl, rfl, Nat.le_succ _, fun h => h.append rfl⟩

theorem giveRole_frame (t : Tables) (id : Id) (row : Option RoleRow) :
    RolesOnly t (t.giveRole id row) := by
  cases row with
  | none => exact RolesOnly.refl t
  | some row =>
    exact ⟨fun hg => setAccount_map fun account => hg account _, rfl, rfl, Nat.le_refl _,
      fun h => h⟩

theorem backfill_frame (t : Tables) (account : Account) : RolesOnly t (t.backfill account) := by
  unfold backfill
  split
  · exact (t.ensureRole_frame _ _).trans (giveRole_frame _ _ _)
  · exact RolesOnly.refl t

theorem ensureRoles_frame (t : Tables) (wanted : List (String × Option String)) :
    RolesOnly t (t.ensureRoles wanted) :=
  foldl_keeps (P := RolesOnly t) (fun s x hs => hs.trans (s.ensureRole_frame x.1 x.2)) wanted
    (RolesOnly.refl t)

theorem bootstrap_frame (t : Tables) : RolesOnly t t.bootstrapRbac :=
  foldl_keeps (P := RolesOnly t) (fun s x hs => hs.trans (s.backfill_frame x)) t.accounts
    (t.ensureRoles_frame t.wantedRoles)

end Tables

end QnscKb.Users
