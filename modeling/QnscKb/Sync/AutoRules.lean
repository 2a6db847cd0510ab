import QnscKb.Sync.Principals

/-!
# Sync — AutoRules

The automatic rules, entry by entry (`auto_resolve` of `src/domain/acl_auto.py`): which entries they
look at, what a person and a group are matched with, and what each part of the result holds.
-/

namespace QnscKb.Principals
open QnscKb.Access QnscKb.Sync

theorem key_inj {t t' i i' : String} (ht : ':' ∉ t.toList) (ht' : ':' ∉ t'.toList)
    (h : principalKey t i = principalKey t' i') : t = t' ∧ i = i' := by
  have hlist : t.toList ++ ':' :: i.toList = t'.toList ++ ':' :: i'.toList := by
    have hlist := congrArg String.toList h
    simpa [principalKey, String.toList_append] using hlist
  have hplain : ∀ {a : Text} (b : Text), ':' ∉ a →
      (a ++ ':' :: b).takeWhile (fun c => c != ':') = a := by
    intro a b ha
    rw [List.takeWhile_append_of_pos]
    · simp
    · intro c hc
      rw [bne_iff_ne]
      rintro rfl
      exact ha hc
  have htext : t.toList = t'.toList := by
    rw [← hplain i.toList ht, hlist, hplain i'.toList ht']
  rw [htext] at hlist
  have hid : i.toList = i'.toList := by simpa using hlist
  exact ⟨String.toList_inj.mp htext, String.toList_inj.mp hid⟩

theorem Principal.key_inj {p q : Principal} (h : p.key = q.key) : p = q := by
  obtain ⟨⟨t, ht⟩, i⟩ := p
  obtain ⟨⟨t', ht'⟩, i'⟩ := q
  obtain ⟨rfl, rfl⟩ := QnscKb.Principals.key_inj ht ht' h
  rfl

theorem PrincipalType.isGroup_of_isUser {t : PrincipalType} (h : t.isUser = true) :
    t.isGroup = false := by
  have htext : t.text = "user" ∨ t.text = "siteUser" := by
    simpa [PrincipalType.isUser, USER_TYPES] using h
  rcases htext with htext | htext <;> simp [PrincipalType.isGroup, GROUP_TYPES, htext]

theorem PrincipalType.isUser_of_isGroup {t : PrincipalType} (h : t.isGroup = true) :
    t.isUser = false := by
  rw [← Bool.not_eq_true]
  intro huser
  rw [PrincipalType.isGroup_of_isUser huser] at h
  cases h

/-! ### Matches -/

section Matches

variable (C : Characters) (records : Records) (companyDomain : String)

/-- An active account of the company has this address. -/
def HasAccount (address : String) (userId : Id) : Prop :=
  ∃ person ∈ records.people, C.sqlLower person.email = address ∧
    person.companyDomain = companyDomain ∧ person.active = true ∧ person.id = userId

/-- The account of a person: that of the first of their addresses, best source first, which has
one. -/
def FirstAccount (item : Permission) (userId : Id) : Prop :=
  ∃ before address after, emailsOf C item = before ++ address :: after ∧
    HasAccount C records companyDomain address userId ∧
    ∀ earlier ∈ before, ∀ other, ¬ HasAccount C records companyDomain earlier other

/-- The one active department of the company that has the group's name. -/
def OnlyDepartment (item : Permission) (departmentId : Id) : Prop :=
  normalizeGroupName C item.principalName ≠ [] ∧
    ∃ d, (companyDepartments records companyDomain).filter
        (fun d => normalizeDepartmentName C d.name == normalizeGroupName C item.principalName) =
          [d] ∧ d.id = departmentId

/-- No two active accounts of the company have one address. -/
def OneAccount : Prop :=
  ∀ a ∈ records.people, ∀ b ∈ records.people, a.active = true → b.active = true →
    a.companyDomain = companyDomain → b.companyDomain = companyDomain →
    C.sqlLower a.email = C.sqlLower b.email → a = b

variable {C records companyDomain}

variable {address : String}

theorem accountOf_none_iff :
    accountOf C records companyDomain address = none ↔
      ∀ userId, ¬ HasAccount C records companyDomain address userId := by
  simp only [accountOf, Option.map_eq_none_iff, List.find?_eq_none, List.mem_reverse, HasAccount,
    not_exists, not_and]
  constructor
  · intro h userId person hperson haddress hcompany hactive
    exact absurd (by simp [haddress, hcompany, hactive]) (h person hperson)
  · intro h person hperson hfits
    simp only [Bool.and_eq_true, beq_iff_eq] at hfits
    exact h person.id person hperson hfits.1.1 hfits.1.2 hfits.2 rfl

variable {userId : Id}

theorem hasAccount_of_accountOf (h : accountOf C records companyDomain address = some userId) :
    HasAccount C records companyDomain address userId := by
  obtain ⟨person, hfind, rfl⟩ := Option.map_eq_some_iff.mp h
  have hfits := List.find?_some hfind
  simp only [Bool.and_eq_true, beq_iff_eq] at hfits
  exact ⟨person, List.mem_reverse.mp (List.mem_of_find?_eq_some hfind), hfits.1.1, hfits.1.2,
    hfits.2, rfl⟩

theorem HasAccount.unique (hone : OneAccount C records companyDomain) {other : Id}
    (h : HasAccount C records companyDomain address userId)
    (h' : HasAccount C records companyDomain address other) : userId = other := by
  obtain ⟨a, ha, haddress, hcompany, hactive, rfl⟩ := h
  obtain ⟨b, hb, haddress', hcompany', hactive', rfl⟩ := h'
  rw [hone a ha b hb hactive hactive' hcompany hcompany' (haddress.trans haddress'.symm)]

variable {item : Permission}

theorem firstAccount_of_hit (h : hit C records companyDomain item = some userId) :
    FirstAccount C records companyDomain item userId := by
  obtain ⟨before, address, after, hsplit, haccount, hbefore⟩ := List.findSome?_eq_some_iff.mp h
  refine ⟨before, address, after, hsplit, hasAccount_of_accountOf haccount, ?_⟩
  intro earlier hearlier
  exact accountOf_none_iff.mp (hbefore earlier hearlier)

theorem hit_none_iff : hit C records companyDomain item = none ↔
    ∀ address ∈ emailsOf C item, ∀ userId, ¬ HasAccount C records companyDomain address userId := by
  rw [hit, List.findSome?_eq_none_iff]
  exact forall_congr' fun address => imp_congr_right fun _ => accountOf_none_iff

/-- What a person is matched with. -/
theorem hit_iff (hone : OneAccount C records companyDomain) :
    hit C records companyDomain item = some userId ↔
      FirstAccount C records companyDomain item userId := by
  refine ⟨firstAccount_of_hit, ?_⟩
  rintro ⟨before, address, after, hsplit, haccount, hbefore⟩
  refine List.findSome?_eq_some_iff.mpr ⟨before, address, after, hsplit, ?_, ?_⟩
  · cases hfound : accountOf C records companyDomain address with
    | none => exact absurd haccount (accountOf_none_iff.mp hfound userId)
    | some other => rw [(hasAccount_of_accountOf hfound).unique hone haccount]
  · intro earlier hearlier
    exact accountOf_none_iff.mpr (hbefore earlier hearlier)

/-- What a group is matched with. -/
theorem matchDepartment_iff {departmentId : Id} :
    matchDepartment C item.principalName (companyDepartments records companyDomain) =
      some departmentId ↔ OnlyDepartment C records companyDomain item departmentId := by
  rw [OnlyDepartment, matchDepartment]
  split
  · rename_i hempty
    exact iff_of_false (by simp) fun h => h.1 (List.isEmpty_iff.mp hempty)
  · rename_i hnonempty
    rw [and_iff_right (by simpa using hnonempty)]
    split
    · rename_i d hd
      simp [hd]
    · rename_i hno
      refine iff_of_false (by simp) ?_
      rintro ⟨d, hd, -⟩
      exact hno d hd

end Matches

section Left

variable (connector : Connector) (principals : List Permission)
  (alreadyResolved : Principal → Bool) (matchedUser : String → Bool)

def Awaiting (item : Permission) : Prop :=
  connector.autoResolve = true ∧ item ∈ principals ∧ item.principalId ≠ "" ∧
    alreadyResolved item.toPrincipal = false

/-- A person the identity table does not know. -/
def Unknown (item : Permission) : Prop :=
  item.principalType.isUser = true ∧ matchedUser item.principalId = false

end Left

/-! ### The parts of the result -/

section Parts

variable {C : Characters} {records : Records} {connector : Connector}
  {principals : List Permission} {alreadyResolved : Principal → Bool} {matchedUser : String → Bool}

theorem autoResolve_off (hoff : connector.autoResolve = false) :
    autoResolve C records connector principals alreadyResolved matchedUser =
      ⟨[], [], [], [], []⟩ := by
  simp [autoResolve, hoff]

theorem not_awaiting_of_off (hoff : connector.autoResolve = false) (item : Permission) :
    ¬ Awaiting connector principals alreadyResolved item := by
  simp [Awaiting, hoff]

variable {e : String × Resolution}

variable {item : Permission}

theorem resolveCompany_iff :
    resolveCompany item = some e ↔
      item.key = e.1 ∧ wholeCompany item.toPrincipal = true ∧
        e.2 = .company item.principalName := by
  unfold resolveCompany
  split
  · rename_i hcompany
    simp only [hcompany, Option.some.injEq, Prod.ext_iff, true_and]
    exact and_congr_right fun _ => eq_comm
  · rename_i hpart
    simp [hpart]

theorem resolvePerson_iff :
    resolvePerson C records connector item = some e ↔
      item.key = e.1 ∧ ∃ userId, hit C records connector.companyDomain item = some userId ∧
        e.2 = .email item.principalName userId := by
  rw [resolvePerson, Option.map_eq_some_iff]
  constructor
  · rintro ⟨userId, hhit, rfl⟩
    exact ⟨rfl, userId, hhit, rfl⟩
  · rintro ⟨hkey, userId, hhit, has⟩
    exact ⟨userId, hhit, Prod.ext hkey has.symm⟩

theorem resolveGroup_iff :
    resolveGroup C records connector item = some e ↔
      item.key = e.1 ∧ ∃ departmentId,
        OnlyDepartment C records connector.companyDomain item departmentId ∧
          e.2 = .name item.principalName departmentId := by
  rw [resolveGroup, Option.map_eq_some_iff]
  constructor
  · rintro ⟨departmentId, hmatch, rfl⟩
    exact ⟨rfl, departmentId, matchDepartment_iff.mp hmatch, rfl⟩
  · rintro ⟨hkey, departmentId, honly, has⟩
    exact ⟨departmentId, matchDepartment_iff.mpr honly, Prod.ext hkey has.symm⟩

theorem mem_users_iff {e : String × Id} :
    e ∈ (autoResolve C records connector principals alreadyResolved matchedUser).users ↔
      ∃ item, Awaiting connector principals alreadyResolved item ∧ Unknown matchedUser item ∧
        item.principalId = e.1 ∧ hit C records connector.companyDomain item = some e.2 := by
  cases hon : connector.autoResolve with
  | false => simp [autoResolve_off hon, not_awaiting_of_off hon]
  | true =>
    simp only [autoResolve, Bool.not_true, Bool.false_eq_true, if_false, List.mem_filterMap,
      List.mem_filter, Bool.and_eq_true, bne_iff_ne, Bool.not_eq_true', Awaiting, Unknown, hon,
      true_and, Option.map_eq_some_iff]
    constructor
    · rintro ⟨item, ⟨hawaiting, hunknown⟩, userId, hhit, rfl⟩
      exact ⟨item, hawaiting, hunknown, rfl, hhit⟩
    · rintro ⟨item, hawaiting, hunknown, hid, hhit⟩
      exact ⟨item, ⟨hawaiting, hunknown⟩, e.2, hhit, Prod.ext hid rfl⟩

theorem mem_resolved_iff :
    e ∈ (autoResolve C records connector principals alreadyResolved matchedUser).resolved ↔
      ∃ item, Awaiting connector principals alreadyResolved item ∧ item.key = e.1 ∧
        ((wholeCompany item.toPrincipal = true ∧ e.2 = .company item.principalName) ∨
          (Unknown matchedUser item ∧ ∃ userId,
            hit C records connector.companyDomain item = some userId ∧
              e.2 = .email item.principalName userId) ∨
          (item.principalType.isGroup = true ∧ ∃ departmentId,
            OnlyDepartment C records connector.companyDomain item departmentId ∧
              e.2 = .name item.principalName departmentId)) := by
  cases hon : connector.autoResolve with
  | false => simp [autoResolve_off hon, not_awaiting_of_off hon]
  | true =>
    -- one loop each: the whole company, people, groups
    simp only [autoResolve, Bool.not_true, Bool.false_eq_true, if_false, List.mem_append,
      List.mem_filterMap, resolveCompany_iff, resolvePerson_iff, resolveGroup_iff,
      List.mem_filter, Bool.and_eq_true, bne_iff_ne, Bool.not_eq_true', Awaiting, Unknown, hon,
      true_and]
    constructor
    · rintro ((⟨item, hawaiting, hkey, hcompany⟩ | ⟨item, ⟨hawaiting, hunknown⟩, hkey, hperson⟩) |
        ⟨item, ⟨hawaiting, hgroup⟩, hkey, hname⟩)
      · exact ⟨item, hawaiting, hkey, .inl hcompany⟩
      · exact ⟨item, hawaiting, hkey, .inr (.inl ⟨hunknown, hperson⟩)⟩
      · exact ⟨item, hawaiting, hkey, .inr (.inr ⟨hgroup, hname⟩)⟩
    · rintro ⟨item, hawaiting, hkey, hcompany | ⟨hunknown, hperson⟩ | ⟨hgroup, hname⟩⟩
      · exact .inl (.inl ⟨item, hawaiting, hkey, hcompany⟩)
      · exact .inl (.inr ⟨item, ⟨hawaiting, hunknown⟩, hkey, hperson⟩)
      · exact .inr ⟨item, ⟨hawaiting, hgroup⟩, hkey, hname⟩

theorem mem_departmentIds_iff {departmentId : Id} :
    departmentId ∈
        (autoResolve C records connector principals alreadyResolved matchedUser).departmentIds ↔
      (∃ item, Awaiting connector principals alreadyResolved item ∧
        item.principalType.isGroup = true ∧
          OnlyDepartment C records connector.companyDomain item departmentId) ∨
      ((∃ item, Awaiting connector principals alreadyResolved item ∧
        wholeCompany item.toPrincipal = true) ∧
          ∃ d ∈ companyDepartments records connector.companyDomain, d.id = departmentId) := by
  cases hon : connector.autoResolve with
  | false => simp [autoResolve_off hon, not_awaiting_of_off hon]
  | true =>
    simp only [autoResolve, Bool.not_true, Bool.false_eq_true, if_false, List.mem_append,
      List.mem_filterMap, matchDepartment_iff, List.mem_filter, Bool.and_eq_true, bne_iff_ne,
      Bool.not_eq_true', Awaiting, hon, true_and]
    refine or_congr (exists_congr fun item => and_assoc) ?_
    split
    · rename_i hany
      rw [List.mem_map, and_iff_right]
      simpa [and_assoc] using hany
    · rename_i hnone
      refine iff_of_false List.not_mem_nil fun h => hnone ?_
      simpa [and_assoc] using h.1

theorem mem_withoutAccount_iff {id : String} :
    id ∈ (autoResolve C records connector principals alreadyResolved matchedUser).withoutAccount ↔
      ∃ item, Awaiting connector principals alreadyResolved item ∧ Unknown matchedUser item ∧
        item.principalId = id ∧ ∀ address ∈ emailsOf C item, ∀ userId,
          ¬ HasAccount C records connector.companyDomain address userId := by
  cases hon : connector.autoResolve with
  | false => simp [autoResolve_off hon, not_awaiting_of_off hon]
  | true =>
    simp only [autoResolve, Bool.not_true, Bool.false_eq_true, if_false, List.mem_map,
      List.mem_filter, Bool.and_eq_true, bne_iff_ne, Bool.not_eq_true', Awaiting, Unknown, hon,
      true_and, Option.isNone_iff_eq_none, hit_none_iff]
    constructor
    · rintro ⟨item, ⟨⟨hawaiting, hunknown⟩, hno⟩, hid⟩
      exact ⟨item, hawaiting, hunknown, hid, hno⟩
    · rintro ⟨item, hawaiting, hunknown, hid, hno⟩
      exact ⟨item, ⟨⟨hawaiting, hunknown⟩, hno⟩, hid⟩

theorem mem_ignored_iff {key : String} :
    key ∈ (autoResolve C records connector principals alreadyResolved matchedUser).ignored ↔
      ∃ item, Awaiting connector principals alreadyResolved item ∧ item.key = key ∧
        wholeCompany item.toPrincipal = false ∧ grantsNothing item.toPrincipal = true := by
  cases hon : connector.autoResolve with
  | false => simp [autoResolve_off hon, not_awaiting_of_off hon]
  | true =>
    simp only [autoResolve, Bool.not_true, Bool.false_eq_true, if_false, List.mem_map,
      List.mem_filter, Bool.and_eq_true, bne_iff_ne, Bool.not_eq_true', Awaiting, hon, true_and]
    refine exists_congr fun item => ?_
    rw [and_assoc, and_congr_right_iff]
    exact fun _ => and_comm

end Parts

end QnscKb.Principals
