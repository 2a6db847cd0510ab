import QnscKb.Access.Agreement

/-!
# Access — Deny rows, listed users and provider ACLs

The three refusals no grant overrides: an explicit deny, the mode for listed users, and the ACL of
the provider that governs an article.
-/

namespace QnscKb.Access
open QnscKb.Where

/-- What a decision keeps, whatever grant led to it. -/
structure Guarded (admitted : Bool) (u : User) (a : Article) : Prop where
  deny : denied u a = true → admitted = false
  users : a.visibility = .users → admitted = true → allowed u a = true
  provider : governedBy a ≠ [] → admitted = true →
    allowedBy (governedBy a) u a = true ∨ sharesDepartment u a = true

/-- An allow row stamped with a provider that does not govern the article, on an article the list
otherwise shows. -/
structure OtherProvider (table : List Department) (u : User) (a : Article) : Prop where
  governed : governedBy a ≠ []
  noRow : allowedBy (governedBy a) u a = false
  notShared : sharesDepartment u a = false
  otherRow : allowedBy SOURCE_ACL_PROVIDERS u a = true
  live : a.live = true
  notDenied : denied u a = false
  primary : primaryDepartmentActive table a = true
  held : holdsAny u .articleRead = true
  tenant : grants u .articleRead .global = true ∨ sameCompany u a = true
  state : ¬ Unlisted u a

variable {table : List Department} {u : User} {a : Article}

/-- Opening keeps the deny rows, the users mode and the allow rows. -/
theorem open_guarded (u : User) (a : Article) : Guarded (canViewArticle u a) u a where
  deny h := by
    rw [Bool.eq_false_iff, Ne, canViewArticle_iff]
    rintro ⟨-, -, hd, -⟩
    rw [h] at hd
    cases hd
  users hv h := (canViewArticle_iff.mp h).2.2.2.2.1 hv
  provider hg h := (sourceAclAllows_iff.mp (canViewArticle_iff.mp h).2.2.2.1).resolve_left hg

/-- The list keeps the deny rows. -/
theorem list_deny (h : denied u a = true) : listAdmits table u a = false := by
  rw [Bool.eq_false_iff, Ne, listAdmits_iff]
  rintro ⟨-, -, -, hd, -⟩
  rw [h] at hd
  cases hd

/-- The list keeps the users mode. -/
theorem list_users (hv : a.visibility = .users) (h : listAdmits table u a = true) :
    allowed u a = true := by
  obtain ⟨-, -, -, -, -, users, -⟩ := listAdmits_iff.mp h
  exact users hv

theorem OtherProvider.lists (h : OtherProvider table u a) : listAdmits table u a = true := by
  have ha := allowed_of_allowedBy h.otherRow
  have hstate : listState u a = true := by
    rw [← Bool.not_eq_false, listState_eq_false]
    exact h.state
  exact listAdmits_iff.mpr ⟨h.held, h.live, h.primary, h.notDenied, h.tenant, fun _ => ha,
    fun _ => listAudience_of_allowed ha, listSource_iff.mpr (Or.inr (Or.inl h.otherRow)), hstate⟩

/-- **Deny rows, listed users and provider ACLs hold on both paths exactly where no allow row of
another provider stands in.** -/
theorem guarded_iff (table : List Department) (u : User) (a : Article) :
    (Guarded (canViewArticle u a) u a ∧ Guarded (listAdmits table u a) u a) ↔
      ¬ OtherProvider table u a := by
  constructor
  · rintro ⟨-, hlist⟩ hk
    rcases hlist.provider hk.governed hk.lists with h | h
    · rw [hk.noRow] at h; cases h
    · rw [hk.notShared] at h; cases h
  · intro hk
    refine ⟨open_guarded u a, list_deny, list_users, fun hg hlist => ?_⟩
    by_contra hno
    simp only [not_or, Bool.not_eq_true] at hno
    obtain ⟨noRow, notShared⟩ := hno
    obtain ⟨held, hl, hp, hd, tenant, -, -, source, state⟩ := listAdmits_iff.mp hlist
    have otherRow := (listSource_iff.mp source).resolve_left hg |>.resolve_right (by
      rw [notShared]; exact Bool.false_ne_true)
    refine hk ⟨hg, noRow, notShared, otherRow, hl, hd, hp, held, tenant, fun hno => ?_⟩
    rw [listState_eq_false.mpr hno] at state
    cases state

def driveArticle : Article :=
  { financeArticle with
    sensitivity := .internal
    userPermissions := [⟨100, .allow, some "sharepoint"⟩]
    sources := [⟨"google_drive"⟩] }

/-- The list admits an article on an allow row its own provider never wrote. -/
theorem other_provider_row_lists :
    ¬ ∀ (table : List Department) (u : User) (a : Article),
      Guarded (canViewArticle u a) u a ∧ Guarded (listAdmits table u a) u a := by
  intro h
  have hrow := (h [finance] engineer driveArticle).2.provider (by decide) (by decide)
  exact absurd hrow (by decide)

end QnscKb.Access
