import QnscKb.Sync.AutoRules

/-!
# Sync — Accounted

Every principal of a provider's list should be accounted for in one way: mapped, known by identity,
resolved by a rule, ignored, known to have no account, or reported and blocking the approval
(`ways`).

The passes that decide it do not key principals alike: in lower case or as written, by id alone, or
with the difference between a `user` and a `siteUser` and between a `group` and a `siteGroup`
dropped.
-/

namespace QnscKb.Principals
open QnscKb.Access QnscKb.Sync

/-! ### The ways -/

/-- What the gate calls principals of a type. -/
def PrincipalType.label (t : PrincipalType) : String :=
  if t.isGroup then "group" else if t.isUser then "user" else t.text

section Ways

variable (C : Characters) (records : Records) (connector : Connector)
  (permissions : List Permission) (previous : SourceAcl)

def label (p : Principal) : String :=
  principalKey p.principalType.label p.principalId

def reported (p : Principal) : Bool :=
  (unmappedExternalAclPrincipals
    (savePermissions C records connector permissions previous)).contains (label p)

/-- The rules resolved it. -/
def autoResolved (p : Principal) : Bool :=
  ((auto C records connector permissions).resolved.map (·.1)).contains p.key

def autoIgnored (p : Principal) : Bool :=
  (auto C records connector permissions).ignored.contains p.key

def noAccount (p : Principal) : Bool :=
  p.principalType.isUser &&
    (auto C records connector permissions).withoutAccount.contains p.principalId

/-- The six ways of accounting for a principal; an explicit mapping comes before an identity. -/
def ways (p : Principal) : List Bool :=
  [isMapped records connector permissions p,
    !isMapped records connector permissions p && hasIdentity C records connector permissions p,
    autoResolved C records connector permissions p, autoIgnored C records connector permissions p,
    noAccount C records connector permissions p,
    reported C records connector permissions previous p]

/-- Every observed principal is accounted for exactly once. -/
def Accounted : Prop :=
  ∀ p ∈ observed permissions,
    (ways C records connector permissions previous p).count true = 1

/-! ### The condition -/

/-- The users, or the groups, of one id. -/
def usersOf (id : String) : List Principal :=
  (observed permissions).filter fun p => p.principalType.isUser && p.principalId == id

def groupsOf (id : String) : List Principal :=
  (observed permissions).filter fun p => p.principalType.isGroup && p.principalId == id

/-- The entries of users of one id that no administrator mapped. -/
def openEntries (id : String) : List Permission :=
  permissions.filter fun item => item.principalType.isUser && item.principalId == id &&
    !isMapped records connector permissions item.toPrincipal

def personHit (item : Permission) : Bool :=
  (hit C records connector.companyDomain item).isSome

def groupHit (item : Permission) : Bool :=
  (matchDepartment C item.principalName
    (companyDepartments records connector.companyDomain)).isSome

/-- Users of one id: known as written; or mapped, if known in lower case only; or, without the
rules, all mapped or none; or, with them, all found, or none found or mapped and no link. -/
def userSettled (id : String) : Bool :=
  if isMatched C records connector permissions id then true
  else if isMatched C records connector permissions (C.lower id) then
    (usersOf permissions id).all (isMapped records connector permissions)
  else if connector.autoResolve then
    (openEntries records connector permissions id).all (personHit C records connector) ||
      (openEntries records connector permissions id).all
          (fun item => !personHit C records connector item) &&
        (usersOf permissions id).all (fun p => !isMapped records connector permissions p) &&
        !COMPANY_LINKS.contains id
  else (usersOf permissions id).all (isMapped records connector permissions) ||
    (usersOf permissions id).all fun p => !isMapped records connector permissions p

/-- A group an administrator mapped or the rules resolve. -/
def groupKnown (p : Principal) : Bool :=
  isMapped records connector permissions p || connector.autoResolve && (wholeCompany p ||
    permissions.any fun item => item.toPrincipal == p && groupHit C records connector item)

/-- Groups of one id: all known, or none. -/
def groupSettled (id : String) : Bool :=
  (groupsOf permissions id).all (groupKnown C records connector permissions) ||
    (groupsOf permissions id).all fun p => !groupKnown C records connector permissions p

def settled : Bool :=
  (observed permissions).all fun p =>
    if p.principalType.isUser then userSettled C records connector permissions p.principalId
    else if p.principalType.isGroup then groupSettled C records connector permissions p.principalId
    else true

end Ways

/-! ### What the passes leave -/

section Passes

variable {C : Characters} {records : Records} {connector : Connector}
  {permissions : List Permission} {previous : SourceAcl} {p : Principal}

theorem mem_observed :
    p ∈ observed permissions ↔ p.principalId ≠ "" ∧ ∃ item ∈ permissions, item.toPrincipal = p := by
  simp only [observed, List.mem_dedup, List.mem_map, List.mem_filter, bne_iff_ne]
  constructor
  · rintro ⟨item, ⟨hitem, hid⟩, rfl⟩
    exact ⟨hid, item, hitem, rfl⟩
  · rintro ⟨hid, item, hitem, rfl⟩
    exact ⟨item, ⟨hitem, hid⟩, rfl⟩

/-- The entries the rules look at. -/
def Pending (C : Characters) (records : Records) (connector : Connector)
    (permissions : List Permission) (item : Permission) : Prop :=
  item ∈ permissions ∧ item.principalId ≠ "" ∧
    alreadyResolved C records connector permissions item.toPrincipal = false

variable {item : Permission}

theorem not_matched_of_pending (h : Pending C records connector permissions item)
    (huser : item.principalType.isUser = true) :
    isMatched C records connector permissions item.principalId = false := by
  have hopen := h.2.2
  simp only [alreadyResolved, hasIdentity, huser, Bool.true_and, Bool.or_eq_false_iff] at hopen
  exact hopen.2.1

theorem autoResolved_iff : autoResolved C records connector permissions p = true ↔
    connector.autoResolve = true ∧ ∃ item, Pending C records connector permissions item ∧
      item.toPrincipal = p ∧ (wholeCompany p = true ∨
        p.principalType.isUser = true ∧ personHit C records connector item = true ∨
        p.principalType.isGroup = true ∧ groupHit C records connector item = true) := by
  unfold autoResolved auto
  rw [List.contains_iff_mem, List.mem_map]
  constructor
  · rintro ⟨e, he, hkey⟩
    obtain ⟨item, ⟨hon, hpending⟩, hitem, hrule⟩ := mem_resolved_iff.mp he
    obtain rfl := Principal.key_inj (hitem.trans hkey)
    refine ⟨hon, item, hpending, rfl, ?_⟩
    rcases hrule with ⟨hall, -⟩ | ⟨⟨huser, -⟩, userId, hhit, -⟩ | ⟨hgroup, departmentId, honly, -⟩
    · exact .inl hall
    · exact .inr (.inl ⟨huser, by simp [personHit, hhit]⟩)
    · exact .inr (.inr ⟨hgroup, by simp [groupHit, matchDepartment_iff.mpr honly]⟩)
  · rintro ⟨hon, item, hpending, rfl, hrule⟩
    rcases hrule with hall | ⟨huser, hhit⟩ | ⟨hgroup, hhit⟩
    · refine ⟨(item.key, .company item.principalName), mem_resolved_iff.mpr ?_, rfl⟩
      exact ⟨item, ⟨hon, hpending⟩, rfl, .inl ⟨hall, rfl⟩⟩
    · obtain ⟨userId, hhit⟩ := Option.isSome_iff_exists.mp hhit
      refine ⟨(item.key, .email item.principalName userId), mem_resolved_iff.mpr ?_, rfl⟩
      have hunknown := not_matched_of_pending hpending huser
      exact ⟨item, ⟨hon, hpending⟩, rfl, .inr (.inl ⟨⟨huser, hunknown⟩, userId, hhit, rfl⟩)⟩
    · obtain ⟨departmentId, hhit⟩ := Option.isSome_iff_exists.mp hhit
      refine ⟨(item.key, .name item.principalName departmentId), mem_resolved_iff.mpr ?_, rfl⟩
      have honly := matchDepartment_iff.mp hhit
      exact ⟨item, ⟨hon, hpending⟩, rfl, .inr (.inr ⟨hgroup, departmentId, honly, rfl⟩)⟩

theorem autoIgnored_iff : autoIgnored C records connector permissions p = true ↔
    connector.autoResolve = true ∧ wholeCompany p = false ∧ grantsNothing p = true ∧
      ∃ item, Pending C records connector permissions item ∧ item.toPrincipal = p := by
  unfold autoIgnored auto
  rw [List.contains_iff_mem, mem_ignored_iff]
  constructor
  · rintro ⟨item, ⟨hon, hpending⟩, hkey, hpart, hnothing⟩
    obtain rfl := Principal.key_inj hkey
    exact ⟨hon, hpart, hnothing, item, hpending, rfl⟩
  · rintro ⟨hon, hpart, hnothing, item, hpending, rfl⟩
    exact ⟨item, ⟨hon, hpending⟩, rfl, hpart, hnothing⟩

variable {id : String}

theorem withoutAccount_iff :
    (auto C records connector permissions).withoutAccount.contains id = true ↔
      connector.autoResolve = true ∧ ∃ item, Pending C records connector permissions item ∧
        item.principalType.isUser = true ∧ item.principalId = id ∧
          personHit C records connector item = false := by
  unfold auto
  rw [List.contains_iff_mem, mem_withoutAccount_iff]
  constructor
  · rintro ⟨item, ⟨hon, hpending⟩, ⟨huser, -⟩, hid, hno⟩
    exact ⟨hon, item, hpending, huser, hid, by rw [personHit, hit_none_iff.mpr hno]; rfl⟩
  · rintro ⟨hon, item, hpending, huser, rfl, hmiss⟩
    have hunknown := not_matched_of_pending hpending huser
    refine ⟨item, ⟨hon, hpending⟩, ⟨huser, hunknown⟩, rfl, hit_none_iff.mp ?_⟩
    simpa [personHit] using hmiss

theorem isMappedUser_iff : isMappedUser C records connector permissions id = true ↔
    isMatched C records connector permissions id = true ∨ connector.autoResolve = true ∧
      ∃ item, Pending C records connector permissions item ∧
        item.principalType.isUser = true ∧ item.principalId = id ∧
          personHit C records connector item = true := by
  unfold isMappedUser mappedUsers auto
  rw [List.any_append, Bool.or_eq_true]
  refine or_congr Iff.rfl ?_
  rw [List.any_eq_true]
  constructor
  · rintro ⟨e, he, hid⟩
    obtain ⟨item, ⟨hon, hpending⟩, ⟨huser, -⟩, hitem, hhit⟩ := mem_users_iff.mp he
    refine ⟨hon, item, hpending, huser, hitem.trans (beq_iff_eq.mp hid), ?_⟩
    simp [personHit, hhit]
  · rintro ⟨hon, item, hpending, huser, rfl, hhit⟩
    obtain ⟨userId, hhit⟩ := Option.isSome_iff_exists.mp hhit
    have hunknown := not_matched_of_pending hpending huser
    exact ⟨(item.principalId, userId),
      mem_users_iff.mpr ⟨item, ⟨hon, hpending⟩, ⟨huser, hunknown⟩, rfl, hhit⟩,
      beq_self_eq_true _⟩

/-! ### What the gate reads -/

theorem PrincipalType.label_plain (t : PrincipalType) : ':' ∉ t.label.toList := by
  unfold PrincipalType.label
  split_ifs
  · decide
  · decide
  · exact t.plain

theorem PrincipalType.label_eq_group {t : PrincipalType} :
    t.label = "group" ↔ t.isGroup = true := by
  unfold PrincipalType.label
  split_ifs with hgroup huser
  · simp [hgroup]
  · simp [hgroup]
  · refine ⟨fun htext => ?_, fun h => absurd h hgroup⟩
    simp [PrincipalType.isGroup, GROUP_TYPES, htext]

theorem PrincipalType.label_eq_user {t : PrincipalType} : t.label = "user" ↔ t.isUser = true := by
  unfold PrincipalType.label
  split_ifs with hgroup huser
  · simp [PrincipalType.isUser_of_isGroup hgroup]
  · simp [huser]
  · refine ⟨fun htext => ?_, fun h => absurd h huser⟩
    simp [PrincipalType.isUser, USER_TYPES, htext]

theorem label_eq_iff {q : Principal} :
    label q = label p ↔ q.principalType.label = p.principalType.label ∧
      q.principalId = p.principalId := by
  constructor
  · exact key_inj q.principalType.label_plain p.principalType.label_plain
  · rintro ⟨htype, hid⟩
    simp only [label, htype, hid]

theorem mem_sortedTexts {text : String} {texts : List String} :
    text ∈ sortedTexts texts ↔ text ∈ texts :=
  List.mem_insertionSort _

theorem principalKey_ne (t i : String) : principalKey t i ≠ "" := by
  intro h
  have hlist := congrArg String.toList h
  simp [principalKey, String.toList_append] at hlist

/-- A principal is reported under the label it shares. -/
theorem principal_reported_iff : reported C records connector permissions previous p = true ↔
    ∃ q ∈ observed permissions, label q = label p ∧
      (unmappedGroup C records connector permissions q = true ∨
        unmappedUser C records connector permissions q = true ∨
        unmappedOther C records connector permissions q = true) := by
  have hid : ∀ {q}, q ∈ observed permissions → q.principalId ≠ "" :=
    fun hq => (mem_observed.mp hq).1
  have hgroup : ∀ {q}, unmappedGroup C records connector permissions q = true →
      principalKey "group" q.principalId = label q := by
    intro q hq
    simp only [unmappedGroup, Bool.and_eq_true] at hq
    rw [label, PrincipalType.label_eq_group.mpr hq.1.1]
  have huser : ∀ {q}, unmappedUser C records connector permissions q = true →
      principalKey "user" q.principalId = label q := by
    intro q hq
    simp only [unmappedUser, Bool.and_eq_true] at hq
    rw [label, PrincipalType.label_eq_user.mpr hq.1.1.1]
  have hother : ∀ {q}, unmappedOther C records connector permissions q = true →
      q.key = label q := by
    intro q hq
    simp only [unmappedOther, Bool.and_eq_true, Bool.not_eq_true'] at hq
    simp [label, PrincipalType.label, hq.1.1, Principal.key]
  simp only [reported, unmappedExternalAclPrincipals, savePermissions, List.contains_iff_mem,
    mem_sortedTexts, List.mem_dedup, List.mem_append, List.mem_map, List.mem_filter, bne_iff_ne]
  constructor
  · rintro ((⟨_, ⟨⟨q, ⟨hq, hleft⟩, rfl⟩, -⟩, hlabel⟩ | ⟨_, ⟨⟨q, ⟨hq, hleft⟩, rfl⟩, -⟩, hlabel⟩) |
      ⟨⟨q, ⟨hq, hleft⟩, hlabel⟩, -⟩)
    · exact ⟨q, hq, by rw [← hgroup hleft, hlabel], .inl hleft⟩
    · exact ⟨q, hq, by rw [← huser hleft, hlabel], .inr (.inl hleft)⟩
    · exact ⟨q, hq, by rw [← hother hleft, hlabel], .inr (.inr hleft)⟩
  · rintro ⟨q, hq, hlabel, hleft | hleft | hleft⟩
    · exact .inl (.inl ⟨_, ⟨⟨q, ⟨hq, hleft⟩, rfl⟩, hid hq⟩, by rw [hgroup hleft, hlabel]⟩)
    · exact .inl (.inr ⟨_, ⟨⟨q, ⟨hq, hleft⟩, rfl⟩, hid hq⟩, by rw [huser hleft, hlabel]⟩)
    · exact .inr ⟨⟨q, ⟨hq, hleft⟩, by rw [hother hleft, hlabel]⟩, principalKey_ne _ _⟩

/-- The four ways a principal is accounted for, counted. -/
theorem count_ways : (ways C records connector permissions previous p).count true =
    (isMapped records connector permissions p).toNat +
    (!isMapped records connector permissions p &&
      hasIdentity C records connector permissions p).toNat +
    (autoResolved C records connector permissions p).toNat +
    (autoIgnored C records connector permissions p).toNat +
    (noAccount C records connector permissions p).toNat +
    (reported C records connector permissions previous p).toNat := by
  have hsix : ∀ a b c d e f : Bool, [a, b, c, d, e, f].count true =
      a.toNat + b.toNat + c.toNat + d.toNat + e.toNat + f.toNat := by decide
  exact hsix _ _ _ _ _ _

theorem exists_pending (hp : p ∈ observed permissions)
    (hmapped : isMapped records connector permissions p = false)
    (hidentity : hasIdentity C records connector permissions p = false) :
    ∃ item, Pending C records connector permissions item ∧ item.toPrincipal = p := by
  obtain ⟨hid, item, hitem, rfl⟩ := mem_observed.mp hp
  exact ⟨item, ⟨hitem, hid, by simp [alreadyResolved, hmapped, hidentity]⟩, rfl⟩

theorem Pending.not_mapped (h : Pending C records connector permissions item) :
    isMapped records connector permissions item.toPrincipal = false := by
  have hopen := h.2.2
  rw [alreadyResolved, Bool.or_eq_false_iff] at hopen
  exact hopen.1

theorem Pending.mem_observed (h : Pending C records connector permissions item) :
    item.toPrincipal ∈ observed permissions :=
  QnscKb.Principals.mem_observed.mpr ⟨h.2.1, item, h.1, rfl⟩

/-! ### Neither people nor groups -/

theorem reported_of_other (hp : p ∈ observed permissions)
    (hgroup : p.principalType.isGroup = false) (huser : p.principalType.isUser = false) :
    reported C records connector permissions previous p =
      unmappedOther C records connector permissions p := by
  have htext : p.principalType.label = p.principalType.text := by
    simp [PrincipalType.label, hgroup, huser]
  rw [Bool.eq_iff_iff, principal_reported_iff]
  constructor
  · rintro ⟨q, -, hlabel, hleft⟩
    obtain ⟨htype, hid⟩ := label_eq_iff.mp hlabel
    have hqgroup : q.principalType.isGroup = false := by
      rw [← Bool.not_eq_true, ← PrincipalType.label_eq_group, htype,
        PrincipalType.label_eq_group, Bool.not_eq_true]
      exact hgroup
    have hquser : q.principalType.isUser = false := by
      rw [← Bool.not_eq_true, ← PrincipalType.label_eq_user, htype,
        PrincipalType.label_eq_user, Bool.not_eq_true]
      exact huser
    have hsame : q = p := by
      have hq : q.principalType.label = q.principalType.text := by
        simp [PrincipalType.label, hqgroup, hquser]
      exact Principal.key_inj (by rw [Principal.key, ← hq, htype, htext, hid, Principal.key])
    subst hsame
    rcases hleft with hleft | hleft | hleft
    · simp [unmappedGroup, hgroup] at hleft
    · simp [unmappedUser, huser] at hleft
    · exact hleft
  · intro hleft
    exact ⟨p, hp, rfl, .inr (.inr hleft)⟩

theorem count_other (hp : p ∈ observed permissions) (hgroup : p.principalType.isGroup = false)
    (huser : p.principalType.isUser = false) :
    (ways C records connector permissions previous p).count true = 1 := by
  have hidentity : hasIdentity C records connector permissions p = false := by
    simp [hasIdentity, huser]
  have hnoAccount : noAccount C records connector permissions p = false := by
    simp [noAccount, huser]
  have hreported : reported C records connector permissions previous p =
      unmappedOther C records connector permissions p := reported_of_other hp hgroup huser
  have hreported' : reported C records connector permissions previous p =
      (!isMapped records connector permissions p &&
        !(autoResolved C records connector permissions p ||
          autoIgnored C records connector permissions p)) := by
    rw [hreported, unmappedOther, hgroup, huser, autoResolved, autoIgnored, Bool.eq_iff_iff]
    simp only [Bool.and_eq_true, Bool.not_eq_true', ← Bool.not_eq_true, Bool.or_eq_true,
      List.contains_iff_mem, List.mem_append, not_or, true_and]
  have hresolved : autoResolved C records connector permissions p = true →
      isMapped records connector permissions p = false ∧ wholeCompany p = true := by
    intro h
    obtain ⟨-, item, hpending, rfl, hall | hhit | hhit⟩ := autoResolved_iff.mp h
    · exact ⟨hpending.not_mapped, hall⟩
    · rw [huser] at hhit; cases hhit.1
    · rw [hgroup] at hhit; cases hhit.1
  have hignored : autoIgnored C records connector permissions p = true →
      isMapped records connector permissions p = false ∧ wholeCompany p = false := by
    intro h
    obtain ⟨-, hpart, -, item, hpending, rfl⟩ := autoIgnored_iff.mp h
    exact ⟨hpending.not_mapped, hpart⟩
  rw [count_ways, hidentity, hnoAccount, hreported']
  cases hmapped : isMapped records connector permissions p with
  | true =>
    rw [hmapped] at hresolved hignored
    cases hA : autoResolved C records connector permissions p with
    | true => cases (hresolved hA).1
    | false =>
      cases hI : autoIgnored C records connector permissions p with
      | true => cases (hignored hI).1
      | false => rfl
  | false =>
    cases hA : autoResolved C records connector permissions p with
    | true =>
      cases hI : autoIgnored C records connector permissions p with
      | true => rw [(hresolved hA).2] at hignored; cases (hignored hI).2
      | false => rfl
    | false => cases autoIgnored C records connector permissions p <;> rfl

/-! ### Groups -/

theorem mem_groupsOf : p ∈ groupsOf permissions id ↔
    p ∈ observed permissions ∧ p.principalType.isGroup = true ∧ p.principalId = id := by
  simp only [groupsOf, List.mem_filter, Bool.and_eq_true, beq_iff_eq]

theorem groupKnown_eq (hp : p ∈ observed permissions) (hgroup : p.principalType.isGroup = true) :
    groupKnown C records connector permissions p = (isMapped records connector permissions p ||
      autoResolved C records connector permissions p) := by
  have huser := PrincipalType.isUser_of_isGroup hgroup
  have hidentity : hasIdentity C records connector permissions p = false := by
    simp [hasIdentity, huser]
  cases hmapped : isMapped records connector permissions p with
  | true => simp [groupKnown, hmapped]
  | false =>
    rw [groupKnown, hmapped, Bool.false_or, Bool.false_or, Bool.eq_iff_iff, autoResolved_iff]
    simp only [Bool.and_eq_true, Bool.or_eq_true, List.any_eq_true, beq_iff_eq]
    refine and_congr Iff.rfl ⟨?_, ?_⟩
    · rintro (hall | ⟨item, hitem, rfl, hhit⟩)
      · obtain ⟨item, hpending, hitem⟩ := exists_pending hp hmapped hidentity
        exact ⟨item, hpending, hitem, .inl hall⟩
      · refine ⟨item, ⟨hitem, (mem_observed.mp hp).1, ?_⟩, rfl, .inr (.inr ⟨hgroup, hhit⟩)⟩
        simp [alreadyResolved, hmapped, hidentity]
    · rintro ⟨item, hpending, hitem, hall | ⟨hperson, -⟩ | ⟨-, hhit⟩⟩
      · exact .inl hall
      · rw [huser] at hperson
        cases hperson
      · exact .inr ⟨item, hpending.1, hitem, hhit⟩

theorem reported_of_group (previous : SourceAcl) (hgroup : p.principalType.isGroup = true) :
    reported C records connector permissions previous p = true ↔
      ∃ q ∈ groupsOf permissions p.principalId,
        groupKnown C records connector permissions q = false := by
  have hleft : ∀ {q}, q ∈ observed permissions → q.principalType.isGroup = true →
      unmappedGroup C records connector permissions q =
        !groupKnown C records connector permissions q := by
    intro q hq hqgroup
    rw [groupKnown_eq hq hqgroup, unmappedGroup, hqgroup, autoResolved, Bool.true_and, Bool.not_or]
  rw [principal_reported_iff]
  constructor
  · rintro ⟨q, hq, hlabel, hpass⟩
    obtain ⟨htype, hid⟩ := label_eq_iff.mp hlabel
    have hqgroup : q.principalType.isGroup = true := by
      rw [← PrincipalType.label_eq_group, htype, PrincipalType.label_eq_group]
      exact hgroup
    refine ⟨q, mem_groupsOf.mpr ⟨hq, hqgroup, hid⟩, ?_⟩
    rcases hpass with hpass | hpass | hpass
    · rw [hleft hq hqgroup, Bool.not_eq_true'] at hpass
      exact hpass
    · simp only [unmappedUser, Bool.and_eq_true] at hpass
      rw [PrincipalType.isGroup_of_isUser hpass.1.1.1] at hqgroup
      cases hqgroup
    · simp [unmappedOther, hqgroup] at hpass
  · rintro ⟨q, hq, hunknown⟩
    obtain ⟨hq, hqgroup, hid⟩ := mem_groupsOf.mp hq
    have htype : q.principalType.label = p.principalType.label := by
      rw [PrincipalType.label_eq_group.mpr hqgroup, PrincipalType.label_eq_group.mpr hgroup]
    refine ⟨q, hq, label_eq_iff.mpr ⟨htype, hid⟩, .inl ?_⟩
    rw [hleft hq hqgroup, hunknown]
    rfl

theorem count_group (hp : p ∈ observed permissions) (hgroup : p.principalType.isGroup = true) :
    (ways C records connector permissions previous p).count true =
      (groupKnown C records connector permissions p).toNat +
        (reported C records connector permissions previous p).toNat := by
  have huser := PrincipalType.isUser_of_isGroup hgroup
  have hidentity : hasIdentity C records connector permissions p = false := by
    simp [hasIdentity, huser]
  have hnoAccount : noAccount C records connector permissions p = false := by
    simp [noAccount, huser]
  have hignored : autoIgnored C records connector permissions p = false := by
    have htext : p.principalType.text = "group" ∨ p.principalType.text = "siteGroup" := by
      simpa [PrincipalType.isGroup, GROUP_TYPES] using hgroup
    have hnothing : grantsNothing p = false := by
      rcases htext with htext | htext <;> simp [grantsNothing, IGNORED_TYPES, htext]
    rw [← Bool.not_eq_true, autoIgnored_iff, hnothing]
    simp
  have hnotboth : autoResolved C records connector permissions p = true →
      isMapped records connector permissions p = false := by
    intro h
    obtain ⟨-, item, hpending, rfl, -⟩ := autoResolved_iff.mp h
    exact hpending.not_mapped
  rw [count_ways, hidentity, hnoAccount, hignored, groupKnown_eq hp hgroup]
  cases hmapped : isMapped records connector permissions p with
  | true =>
    have hno : autoResolved C records connector permissions p = false := by
      rw [← Bool.not_eq_true]
      intro h
      rw [hnotboth h] at hmapped
      cases hmapped
    rw [hno]
    simp
  | false => simp

/-- The groups of an id are accounted for when it is settled. -/
theorem groups_accounted (previous : SourceAcl) (id : String) :
    (∀ p ∈ groupsOf permissions id,
      (ways C records connector permissions previous p).count true = 1) ↔
      groupSettled C records connector permissions id = true := by
  have hcount : ∀ p ∈ groupsOf permissions id,
      ((ways C records connector permissions previous p).count true = 1 ↔
        (groupKnown C records connector permissions p = true ↔
          ¬∃ q ∈ groupsOf permissions id,
            groupKnown C records connector permissions q = false)) := by
    intro p hp
    obtain ⟨hseen, hgroup, rfl⟩ := mem_groupsOf.mp hp
    rw [count_group hseen hgroup, ← reported_of_group previous hgroup]
    cases groupKnown C records connector permissions p <;>
      cases reported C records connector permissions previous p <;> simp
  rw [groupSettled, Bool.or_eq_true, List.all_eq_true, List.all_eq_true]
  constructor
  · intro h
    by_cases hunknown : ∃ q ∈ groupsOf permissions id,
        groupKnown C records connector permissions q = false
    · right
      intro p hp
      have hnot : ¬groupKnown C records connector permissions p = true := fun hknown =>
        ((hcount p hp).mp (h p hp)).mp hknown hunknown
      simpa using hnot
    · left
      intro p hp
      exact ((hcount p hp).mp (h p hp)).mpr hunknown
  · rintro (hall | hnone) p hp
    · refine (hcount p hp).mpr ⟨fun _ => ?_, fun _ => hall p hp⟩
      rintro ⟨q, hq, hunknown⟩
      rw [hall q hq] at hunknown
      cases hunknown
    · have hunknown := hnone p hp
      rw [Bool.not_eq_true'] at hunknown
      refine (hcount p hp).mpr ⟨fun hknown => ?_, fun hnot => absurd ⟨p, hp, hunknown⟩ hnot⟩
      rw [hunknown] at hknown
      cases hknown

/-! ### People -/

theorem mem_usersOf : p ∈ usersOf permissions id ↔
    p ∈ observed permissions ∧ p.principalType.isUser = true ∧ p.principalId = id := by
  simp only [usersOf, List.mem_filter, Bool.and_eq_true, beq_iff_eq]

/-- An id the identity table knows, as written or in lower case. -/
def known (C : Characters) (records : Records) (connector : Connector)
    (permissions : List Permission) (id : String) : Bool :=
  isMatched C records connector permissions id ||
    isMatched C records connector permissions (C.lower id)

theorem hasIdentity_of_user (huser : p.principalType.isUser = true) :
    hasIdentity C records connector permissions p =
      known C records connector permissions p.principalId := by
  rw [hasIdentity, huser, Bool.true_and, known]

theorem not_known_of_pending (h : Pending C records connector permissions item)
    (huser : item.principalType.isUser = true) :
    known C records connector permissions item.principalId = false := by
  have hopen := h.2.2
  rw [alreadyResolved, Bool.or_eq_false_iff, hasIdentity_of_user huser] at hopen
  exact hopen.2

theorem not_ignored_of_user (huser : p.principalType.isUser = true) :
    autoIgnored C records connector permissions p = false := by
  have htext : p.principalType.text = "user" ∨ p.principalType.text = "siteUser" := by
    simpa [PrincipalType.isUser, USER_TYPES] using huser
  have hnothing : grantsNothing p = false := by
    rcases htext with htext | htext <;> simp [grantsNothing, IGNORED_TYPES, htext]
  rw [← Bool.not_eq_true, autoIgnored_iff, hnothing]
  simp

theorem wholeCompany_of_user (huser : p.principalType.isUser = true) :
    wholeCompany p = COMPANY_LINKS.contains p.principalId := by
  have htext : p.principalType.text = "user" ∨ p.principalType.text = "siteUser" := by
    simpa [PrincipalType.isUser, USER_TYPES] using huser
  rcases htext with htext | htext <;> simp [wholeCompany, COMPANY_TYPES, htext]

theorem reported_of_user (huser : p.principalType.isUser = true) :
    reported C records connector permissions previous p = true ↔
      ∃ q ∈ usersOf permissions p.principalId,
        unmappedUser C records connector permissions q = true := by
  rw [principal_reported_iff]
  constructor
  · rintro ⟨q, hq, hlabel, hpass⟩
    obtain ⟨htype, hid⟩ := label_eq_iff.mp hlabel
    have hquser : q.principalType.isUser = true := by
      rw [← PrincipalType.label_eq_user, htype, PrincipalType.label_eq_user]
      exact huser
    refine ⟨q, mem_usersOf.mpr ⟨hq, hquser, hid⟩, ?_⟩
    rcases hpass with hpass | hpass | hpass
    · simp [unmappedGroup, PrincipalType.isGroup_of_isUser hquser] at hpass
    · exact hpass
    · simp [unmappedOther, hquser] at hpass
  · rintro ⟨q, hq, hpass⟩
    obtain ⟨hq, hquser, hid⟩ := mem_usersOf.mp hq
    have htype : q.principalType.label = p.principalType.label := by
      rw [PrincipalType.label_eq_user.mpr hquser, PrincipalType.label_eq_user.mpr huser]
    exact ⟨q, hq, label_eq_iff.mpr ⟨htype, hid⟩, .inr (.inl hpass)⟩

theorem rules_skip
    (hskip : known C records connector permissions id = true ∨ connector.autoResolve = false)
    (hp : p ∈ usersOf permissions id) :
    autoResolved C records connector permissions p = false ∧
      noAccount C records connector permissions p = false ∧
      unmappedUser C records connector permissions p =
        (!isMatched C records connector permissions id &&
          !isMapped records connector permissions p) := by
  obtain ⟨-, huser, rfl⟩ := mem_usersOf.mp hp
  have hnone : connector.autoResolve = true → ∀ item, Pending C records connector permissions item →
      item.principalType.isUser = true → item.principalId = p.principalId → False := by
    intro hon item hpending hitem hid
    rcases hskip with hknown | hoff
    · rw [← hid, not_known_of_pending hpending hitem] at hknown
      cases hknown
    · rw [hoff] at hon
      cases hon
  have hresolved : autoResolved C records connector permissions p = false := by
    rw [← Bool.not_eq_true, autoResolved_iff]
    rintro ⟨hon, item, hpending, rfl, -⟩
    exact hnone hon item hpending huser rfl
  have hmissing : (auto C records connector permissions).withoutAccount.contains p.principalId =
      false := by
    rw [← Bool.not_eq_true, withoutAccount_iff]
    rintro ⟨hon, item, hpending, hitem, hid, -⟩
    exact hnone hon item hpending hitem hid
  have hmatched : isMappedUser C records connector permissions p.principalId =
      isMatched C records connector permissions p.principalId := by
    rw [Bool.eq_iff_iff, isMappedUser_iff]
    refine ⟨fun h => h.resolve_right ?_, .inl⟩
    rintro ⟨hon, item, hpending, hitem, hid, -⟩
    exact hnone hon item hpending hitem hid
  refine ⟨hresolved, by rw [noAccount, huser, hmissing]; rfl, ?_⟩
  rw [unmappedUser, huser, hmatched, hmissing, Bool.true_and, Bool.not_false, Bool.and_true]

theorem count_user_skipped
    (hskip : known C records connector permissions id = true ∨ connector.autoResolve = false)
    (hp : p ∈ usersOf permissions id) :
    (ways C records connector permissions previous p).count true =
      (isMapped records connector permissions p || known C records connector permissions id).toNat +
        (!isMatched C records connector permissions id &&
          !(usersOf permissions id).all (isMapped records connector permissions)).toNat := by
  obtain ⟨hresolved, hmissing, -⟩ := rules_skip hskip hp
  obtain ⟨-, huser, rfl⟩ := mem_usersOf.mp hp
  have hreported : reported C records connector permissions previous p =
      (!isMatched C records connector permissions p.principalId &&
        !(usersOf permissions p.principalId).all (isMapped records connector permissions)) := by
    rw [Bool.eq_iff_iff, reported_of_user huser]
    simp only [Bool.and_eq_true, List.not_all_eq_any_not, List.any_eq_true]
    constructor
    · rintro ⟨q, hq, hleft⟩
      rw [(rules_skip hskip hq).2.2, Bool.and_eq_true] at hleft
      exact ⟨hleft.1, q, hq, hleft.2⟩
    · rintro ⟨hmatched, q, hq, hleft⟩
      exact ⟨q, hq, by rw [(rules_skip hskip hq).2.2, hmatched, hleft]; rfl⟩
  rw [count_ways, hresolved, hmissing, not_ignored_of_user huser, hreported,
    hasIdentity_of_user huser]
  cases isMapped records connector permissions p <;> simp

/-- The users of an id that is known. -/
theorem users_known (id : String) (hknown : known C records connector permissions id = true) :
    (∀ p ∈ usersOf permissions id,
      (ways C records connector permissions previous p).count true = 1) ↔
      userSettled C records connector permissions id = true := by
  have hcount : ∀ p ∈ usersOf permissions id,
      ((ways C records connector permissions previous p).count true = 1 ↔
        (isMatched C records connector permissions id = true ∨
          (usersOf permissions id).all (isMapped records connector permissions) = true)) := by
    intro p hp
    rw [count_user_skipped (.inl hknown) hp, hknown]
    cases isMatched C records connector permissions id <;>
      cases (usersOf permissions id).all (isMapped records connector permissions) <;> simp
  have hlower : isMatched C records connector permissions id = false →
      isMatched C records connector permissions (C.lower id) = true := by
    intro hno
    rwa [known, hno, Bool.false_or] at hknown
  have hsettled : userSettled C records connector permissions id = true ↔
      (isMatched C records connector permissions id = true ∨
        (usersOf permissions id).all (isMapped records connector permissions) = true) := by
    unfold userSettled
    cases hmatched : isMatched C records connector permissions id with
    | true => simp
    | false => simp [hlower hmatched]
  rw [hsettled]
  constructor
  · intro h
    by_cases hempty : usersOf permissions id = []
    · exact .inr (by rw [hempty]; rfl)
    · obtain ⟨p, hp⟩ := List.exists_mem_of_ne_nil _ hempty
      exact (hcount p hp).mp (h p hp)
  · intro h p hp
    exact (hcount p hp).mpr h

/-- The users of an id that is not, where the rules are off. -/
theorem users_off (id : String) (hunknown : known C records connector permissions id = false)
    (hoff : connector.autoResolve = false) :
    (∀ p ∈ usersOf permissions id,
      (ways C records connector permissions previous p).count true = 1) ↔
      userSettled C records connector permissions id = true := by
  obtain ⟨hmatched, hlower⟩ := Bool.or_eq_false_iff.mp hunknown
  have hcount : ∀ p ∈ usersOf permissions id,
      ((ways C records connector permissions previous p).count true = 1 ↔
        (isMapped records connector permissions p =
          (usersOf permissions id).all (isMapped records connector permissions))) := by
    intro p hp
    rw [count_user_skipped (.inr hoff) hp, hunknown, hmatched]
    cases isMapped records connector permissions p <;>
      cases (usersOf permissions id).all (isMapped records connector permissions) <;> simp
  have hsettled : userSettled C records connector permissions id =
      ((usersOf permissions id).all (isMapped records connector permissions) ||
        (usersOf permissions id).all fun p => !isMapped records connector permissions p) := by
    simp [userSettled, hmatched, hlower, hoff]
  rw [hsettled, Bool.or_eq_true]
  constructor
  · intro h
    cases hall : (usersOf permissions id).all (isMapped records connector permissions) with
    | true => exact .inl rfl
    | false =>
      refine .inr (List.all_eq_true.mpr fun p hp => ?_)
      rw [(hcount p hp).mp (h p hp), hall]
      rfl
  · rintro (hall | hnone) p hp
    · rw [hcount p hp, hall]
      exact List.all_eq_true.mp hall p hp
    · have hp' := List.all_eq_true.mp hnone p hp
      rw [Bool.not_eq_true'] at hp'
      rw [hcount p hp, hp', eq_comm, ← Bool.not_eq_true]
      intro hall
      rw [List.all_eq_true.mp hall p hp] at hp'
      cases hp'

theorem mem_openEntries (hid : id ≠ "")
    (hunknown : known C records connector permissions id = false) :
    item ∈ openEntries records connector permissions id ↔
      Pending C records connector permissions item ∧ item.principalType.isUser = true ∧
        item.principalId = id := by
  simp only [openEntries, List.mem_filter, Bool.and_eq_true, beq_iff_eq, Bool.not_eq_true']
  constructor
  · rintro ⟨hitem, ⟨huser, rfl⟩, hmapped⟩
    refine ⟨⟨hitem, hid, ?_⟩, huser, rfl⟩
    rw [alreadyResolved, hmapped, hasIdentity_of_user huser]
    exact hunknown
  · rintro ⟨hpending, huser, rfl⟩
    exact ⟨hpending.1, ⟨huser, rfl⟩, hpending.not_mapped⟩

theorem exists_openEntry (hid : id ≠ "")
    (hunknown : known C records connector permissions id = false) (hp : p ∈ usersOf permissions id)
    (hmapped : isMapped records connector permissions p = false) :
    ∃ item ∈ openEntries records connector permissions id, item.toPrincipal = p := by
  obtain ⟨hseen, huser, rfl⟩ := mem_usersOf.mp hp
  obtain ⟨item, hpending, rfl⟩ :=
    exists_pending (C := C) hseen hmapped (by rw [hasIdentity_of_user huser, hunknown])
  exact ⟨item, (mem_openEntries hid hunknown).mpr ⟨hpending, huser, rfl⟩, rfl⟩

theorem not_reported_of_on (hid : id ≠ "")
    (hunknown : known C records connector permissions id = false)
    (hon : connector.autoResolve = true) (hp : p ∈ usersOf permissions id) :
    reported C records connector permissions previous p = false := by
  obtain ⟨-, huser, rfl⟩ := mem_usersOf.mp hp
  rw [← Bool.not_eq_true, reported_of_user huser]
  rintro ⟨q, hq, hleft⟩
  simp only [unmappedUser, Bool.and_eq_true, Bool.not_eq_true'] at hleft
  obtain ⟨⟨⟨-, hmatched⟩, hmissing⟩, hmapped⟩ := hleft
  obtain ⟨-, -, hqid⟩ := mem_usersOf.mp hq
  obtain ⟨item, hitem, -⟩ := exists_openEntry hid hunknown hq hmapped
  obtain ⟨hpending, hperson, hitem⟩ := (mem_openEntries hid hunknown).mp hitem
  cases hhit : personHit C records connector item with
  | true =>
    rw [isMappedUser_iff.mpr (.inr ⟨hon, item, hpending, hperson, hitem.trans hqid.symm, hhit⟩)]
      at hmatched
    cases hmatched
  | false =>
    rw [withoutAccount_iff.mpr ⟨hon, item, hpending, hperson, hitem.trans hqid.symm, hhit⟩]
      at hmissing
    cases hmissing

theorem autoResolved_of_user (hid : id ≠ "")
    (hunknown : known C records connector permissions id = false)
    (hon : connector.autoResolve = true) (hp : p ∈ usersOf permissions id) :
    autoResolved C records connector permissions p = true ↔
      ∃ item ∈ openEntries records connector permissions id, item.toPrincipal = p ∧
        (COMPANY_LINKS.contains id = true ∨ personHit C records connector item = true) := by
  obtain ⟨-, huser, rfl⟩ := mem_usersOf.mp hp
  have hgroup := PrincipalType.isGroup_of_isUser huser
  rw [autoResolved_iff, wholeCompany_of_user huser]
  constructor
  · rintro ⟨-, item, hpending, rfl, hrule⟩
    refine ⟨item, (mem_openEntries hid hunknown).mpr ⟨hpending, huser, rfl⟩, rfl, ?_⟩
    rcases hrule with hall | ⟨-, hhit⟩ | ⟨hkind, -⟩
    · exact .inl hall
    · exact .inr hhit
    · rw [hgroup] at hkind
      cases hkind
  · rintro ⟨item, hitem, rfl, hrule⟩
    refine ⟨hon, item, ((mem_openEntries hid hunknown).mp hitem).1, rfl, ?_⟩
    exact hrule.imp_right fun hhit => .inl ⟨huser, hhit⟩

theorem noAccount_of_user (hid : id ≠ "")
    (hunknown : known C records connector permissions id = false)
    (hon : connector.autoResolve = true) (hp : p ∈ usersOf permissions id) :
    noAccount C records connector permissions p =
      !(openEntries records connector permissions id).all (personHit C records connector) := by
  obtain ⟨-, huser, rfl⟩ := mem_usersOf.mp hp
  rw [noAccount, huser, Bool.true_and, Bool.eq_iff_iff, withoutAccount_iff,
    List.not_all_eq_any_not, List.any_eq_true]
  constructor
  · rintro ⟨-, item, hpending, hperson, hitem, hhit⟩
    exact ⟨item, (mem_openEntries hid hunknown).mpr ⟨hpending, hperson, hitem⟩, by rw [hhit]; rfl⟩
  · rintro ⟨item, hitem, hhit⟩
    obtain ⟨hpending, hperson, hitem⟩ := (mem_openEntries hid hunknown).mp hitem
    exact ⟨hon, item, hpending, hperson, hitem, (Bool.not_eq_true' _).mp hhit⟩

theorem openEntries_seen (hid : id ≠ "")
    (hunknown : known C records connector permissions id = false)
    (hitem : item ∈ openEntries records connector permissions id) :
    item.toPrincipal ∈ usersOf permissions id ∧
      isMapped records connector permissions item.toPrincipal = false := by
  obtain ⟨hpending, huser, rfl⟩ := (mem_openEntries hid hunknown).mp hitem
  exact ⟨mem_usersOf.mpr ⟨hpending.mem_observed, huser, rfl⟩, hpending.not_mapped⟩

theorem not_autoResolved_of_mapped (hid : id ≠ "")
    (hunknown : known C records connector permissions id = false)
    (hon : connector.autoResolve = true) (hp : p ∈ usersOf permissions id)
    (hmapped : isMapped records connector permissions p = true) :
    autoResolved C records connector permissions p = false := by
  rw [← Bool.not_eq_true, autoResolved_of_user hid hunknown hon hp]
  rintro ⟨item, hitem, rfl, -⟩
  rw [(openEntries_seen hid hunknown hitem).2] at hmapped
  cases hmapped

theorem count_ways_on (hid : id ≠ "") (hunknown : known C records connector permissions id = false)
    (hon : connector.autoResolve = true) (hp : p ∈ usersOf permissions id) :
    (ways C records connector permissions previous p).count true =
      (isMapped records connector permissions p).toNat +
        (autoResolved C records connector permissions p).toNat +
        (!(openEntries records connector permissions id).all
          (personHit C records connector)).toNat := by
  rw [count_ways, not_reported_of_on hid hunknown hon hp, noAccount_of_user hid hunknown hon hp]
  obtain ⟨-, huser, rfl⟩ := mem_usersOf.mp hp
  rw [not_ignored_of_user huser, hasIdentity_of_user huser, hunknown, Bool.and_false]
  rfl

theorem users_found (hid : id ≠ "") (hunknown : known C records connector permissions id = false)
    (hon : connector.autoResolve = true)
    (hall : (openEntries records connector permissions id).all (personHit C records connector) = true)
    (hp : p ∈ usersOf permissions id) :
    (ways C records connector permissions previous p).count true = 1 := by
  rw [count_ways_on hid hunknown hon hp, hall]
  cases hmapped : isMapped records connector permissions p with
  | true => rw [not_autoResolved_of_mapped hid hunknown hon hp hmapped]; rfl
  | false =>
    obtain ⟨item, hitem, hprincipal⟩ := exists_openEntry hid hunknown hp hmapped
    rw [(autoResolved_of_user hid hunknown hon hp).mpr
      ⟨item, hitem, hprincipal, .inr (List.all_eq_true.mp hall item hitem)⟩]
    rfl

/-- With the rules on, the entries of an id are all found, or none is and the id is not theirs by
another way. -/
theorem users_on (hid : id ≠ "") (hunknown : known C records connector permissions id = false)
    (hon : connector.autoResolve = true) :
    (∀ p ∈ usersOf permissions id,
      (ways C records connector permissions previous p).count true = 1) ↔
      userSettled C records connector permissions id = true := by
  obtain ⟨hmatched, hlower⟩ := Bool.or_eq_false_iff.mp hunknown
  have hsettled : userSettled C records connector permissions id =
      ((openEntries records connector permissions id).all (personHit C records connector) ||
        (openEntries records connector permissions id).all
            (fun item => !personHit C records connector item) &&
          (usersOf permissions id).all (fun p => !isMapped records connector permissions p) &&
          !COMPANY_LINKS.contains id) := by
    rw [userSettled, hmatched, hlower, hon]
    rfl
  rw [hsettled]
  cases hall : (openEntries records connector permissions id).all
      (personHit C records connector) with
  | true => exact iff_of_true (fun p hp => users_found hid hunknown hon hall hp) rfl
  | false =>
    obtain ⟨item, hitem, hmiss⟩ := List.all_eq_false.mp hall
    have hone : ∀ p ∈ usersOf permissions id,
        ((ways C records connector permissions previous p).count true = 1 ↔
          isMapped records connector permissions p = false ∧
            autoResolved C records connector permissions p = false) := by
      intro p hp
      rw [count_ways_on hid hunknown hon hp, hall]
      cases isMapped records connector permissions p <;>
        cases autoResolved C records connector permissions p <;> simp
    simp only [Bool.false_or, Bool.and_eq_true, List.all_eq_true, Bool.not_eq_true']
    constructor
    · intro h
      have halone := fun p hp => (hone p hp).mp (h p hp)
      have hnotresolved : ∀ entry ∈ openEntries records connector permissions id,
          ¬(COMPANY_LINKS.contains id = true ∨ personHit C records connector entry = true) := by
        intro entry hentry hrule
        have hseen := (openEntries_seen hid hunknown hentry).1
        have hresolved := (autoResolved_of_user hid hunknown hon hseen).mpr
          ⟨entry, hentry, rfl, hrule⟩
        rw [(halone _ hseen).2] at hresolved
        cases hresolved
      refine ⟨⟨fun entry hentry => ?_, fun p hp => (halone p hp).1⟩, ?_⟩
      · exact (Bool.not_eq_true _).mp fun hhit => hnotresolved entry hentry (.inr hhit)
      · exact (Bool.not_eq_true _).mp fun hlink => hnotresolved item hitem (.inl hlink)
    · rintro ⟨⟨hmisses, hmapped⟩, hlink⟩ p hp
      refine (hone p hp).mpr ⟨hmapped p hp, ?_⟩
      rw [← Bool.not_eq_true, autoResolved_of_user hid hunknown hon hp]
      rintro ⟨entry, hentry, -, hrule | hhit⟩
      · rw [hlink] at hrule
        cases hrule
      · rw [hmisses entry hentry] at hhit
        cases hhit

/-- The users of an id are accounted for when it is settled. -/
theorem users_accounted (previous : SourceAcl) (hid : id ≠ "") :
    (∀ p ∈ usersOf permissions id,
      (ways C records connector permissions previous p).count true = 1) ↔
      userSettled C records connector permissions id = true := by
  cases hknown : known C records connector permissions id with
  | true => exact users_known id hknown
  | false =>
    cases hon : connector.autoResolve with
    | true => exact users_on hid hknown hon
    | false => exact users_off id hknown hon

end Passes

/-- Every principal is accounted for exactly once if and only if the entries of each are settled. -/
theorem accounted_iff (C : Characters) (records : Records) (connector : Connector)
    (permissions : List Permission) (previous : SourceAcl) :
    Accounted C records connector permissions previous ↔
      settled C records connector permissions = true := by
  unfold Accounted settled
  rw [List.all_eq_true]
  constructor
  · intro h p hp
    split_ifs with huser hgroup
    · refine (users_accounted previous (mem_observed.mp hp).1).mp fun q hq => ?_
      exact h q (mem_usersOf.mp hq).1
    · exact (groups_accounted previous p.principalId).mp fun q hq =>
      h q (mem_groupsOf.mp hq).1
    · rfl
  · intro h p hp
    have hsettled := h p hp
    split_ifs at hsettled with huser hgroup
    · exact (users_accounted previous (mem_observed.mp hp).1).mpr hsettled p
        (mem_usersOf.mpr ⟨hp, huser, rfl⟩)
    · exact (groups_accounted previous p.principalId).mpr hsettled p
        (mem_groupsOf.mpr ⟨hp, hgroup, rfl⟩)
    · exact count_other hp ((Bool.not_eq_true _).mp hgroup) ((Bool.not_eq_true _).mp huser)

/-! ### A capital letter -/

/-- Lower case of the letters A to Z, and no marks. -/
def asciiCharacters : Characters where
  lower s := String.ofList (s.toList.map Char.toLower)
  sqlLower s := String.ofList (s.toList.map Char.toLower)
  nfd t := t
  mark _ := false

def ann : Permission :=
  ⟨⟨⟨"user", by decide⟩, "Ann@x.vn"⟩, "Ann", "Ann@x.vn", ""⟩

def annRecords : Records := ⟨[⟨7, "ann@x.vn", "x.vn", true⟩], [], [], []⟩

def annDrive : Connector := ⟨1, "google_drive", "x.vn", true⟩

/-- Ann has an account of her address, written `Ann@x.vn` by the drive: the sync takes her for known
and reports her. -/
theorem resolved_and_reported :
    ¬Accounted asciiCharacters annRecords annDrive [ann] ⟨[], [], [], [], [], false, false⟩ := by
  have hseen : ann.toPrincipal ∈ observed [ann] := by decide
  intro h
  have hcount := h ann.toPrincipal hseen
  revert hcount
  decide +kernel

end QnscKb.Principals
