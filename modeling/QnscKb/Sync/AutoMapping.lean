import QnscKb.Sync.Accounted

/-!
# Sync — AutoMapping

What the automatic rules grant (`auto_resolve` and the matching of `src/domain/acl_auto.py`): which
principals they touch, what each stands for, and that the order of the rows does not count.
-/

namespace QnscKb.Principals
open QnscKb.Access QnscKb.Sync

/-- A dictionary at a key: of two entries the later one counts. -/
def entry {β : Type} (entries : List (String × β)) (key : String) : Option β :=
  (entries.reverse.find? fun e => e.1 = key).map Prod.snd

variable {key : String}

theorem mem_of_entry {β : Type} {entries : List (String × β)} {value : β}
    (h : entry entries key = some value) : (key, value) ∈ entries := by
  obtain ⟨⟨k, v⟩, hfind, rfl⟩ := Option.map_eq_some_iff.mp h
  obtain rfl : k = key := by simpa using List.find?_some hfind
  exact List.mem_reverse.mp (List.mem_of_find?_eq_some hfind)

/-- A dictionary read at a key, where no key has two values. -/
theorem entry_iff {β : Type} {entries : List (String × β)} {value : β}
    (hone : ∀ v v', (key, v) ∈ entries → (key, v') ∈ entries → v = v') :
    entry entries key = some value ↔ (key, value) ∈ entries := by
  refine ⟨mem_of_entry, fun hmem => ?_⟩
  cases hread : entry entries key with
  | some other => rw [hone other value (mem_of_entry hread) hmem]
  | none =>
    have hnone := List.find?_eq_none.mp (Option.map_eq_none_iff.mp hread) (key, value)
      (List.mem_reverse.mpr hmem)
    simp at hnone

theorem entry_eq_none_iff {β : Type} {entries : List (String × β)} :
    entry entries key = none ↔ ∀ value, (key, value) ∉ entries := by
  simp only [entry, Option.map_eq_none_iff, List.find?_eq_none, List.mem_reverse,
    decide_eq_true_eq]
  constructor
  · intro h value hmem
    exact h _ hmem rfl
  · rintro h ⟨k, v⟩ hmem rfl
    exact h v hmem

/-! ### What comes out -/

section Outcome

variable (C : Characters) (records : Records) (connector : Connector)
  (principals : List Permission) (alreadyResolved : Principal → Bool) (matchedUser : String → Bool)

/-- What the rules take a principal for. -/
def StandsFor (item : Permission) (as : Resolution) : Prop :=
  (wholeCompany item.toPrincipal = true ∧ as = .company item.principalName) ∨
    (Unknown matchedUser item ∧ ∃ userId,
      FirstAccount C records connector.companyDomain item userId ∧
        as = .email item.principalName userId) ∨
    (item.principalType.isGroup = true ∧ ∃ departmentId,
      OnlyDepartment C records connector.companyDomain item departmentId ∧
        as = .name item.principalName departmentId)

/-- Entries of one principal, or of people of one id, agree; an organisation's link is a link; and
an address has one account. -/
structure Separate : Prop where
  once : ∀ item ∈ principals, ∀ other ∈ principals, item.toPrincipal = other.toPrincipal →
    item = other
  people : ∀ item ∈ principals, ∀ other ∈ principals, item.principalType.isUser = true →
    other.principalType.isUser = true → item.principalId = other.principalId → item = other
  links : ∀ item ∈ principals,
    item.principalType.isUser = true ∨ item.principalType.isGroup = true →
      COMPANY_LINKS.contains item.principalId = false
  accounts : OneAccount C records connector.companyDomain

/-- Everything in the result has its reason. -/
structure Sound (r : AutoResolution) : Prop where
  users : ∀ e ∈ r.users, ∃ item, Awaiting connector principals alreadyResolved item ∧
    Unknown matchedUser item ∧ item.principalId = e.1 ∧
      FirstAccount C records connector.companyDomain item e.2
  departmentIds : ∀ departmentId, departmentId ∈ r.departmentIds ↔
    (∃ item, Awaiting connector principals alreadyResolved item ∧
      item.principalType.isGroup = true ∧
        OnlyDepartment C records connector.companyDomain item departmentId) ∨
    ((∃ item, Awaiting connector principals alreadyResolved item ∧
      wholeCompany item.toPrincipal = true) ∧
        ∃ d ∈ companyDepartments records connector.companyDomain, d.id = departmentId)
  resolved : ∀ e ∈ r.resolved, ∃ item, Awaiting connector principals alreadyResolved item ∧
    item.key = e.1 ∧ StandsFor C records connector matchedUser item e.2
  withoutAccount : ∀ id, id ∈ r.withoutAccount ↔
    ∃ item, Awaiting connector principals alreadyResolved item ∧ Unknown matchedUser item ∧
      item.principalId = id ∧ ∀ address ∈ emailsOf C item, ∀ userId,
        ¬ HasAccount C records connector.companyDomain address userId
  ignored : ∀ key, key ∈ r.ignored ↔
    ∃ item, Awaiting connector principals alreadyResolved item ∧ item.key = key ∧
      wholeCompany item.toPrincipal = false ∧ grantsNothing item.toPrincipal = true

/-- The dictionaries of the result, key by key. -/
structure Outcome (r : AutoResolution) : Prop where
  users : ∀ id userId, entry r.users id = some userId ↔
    ∃ item, Awaiting connector principals alreadyResolved item ∧ Unknown matchedUser item ∧
      item.principalId = id ∧ FirstAccount C records connector.companyDomain item userId
  resolved : ∀ key as, entry r.resolved key = some as ↔
    ∃ item, Awaiting connector principals alreadyResolved item ∧ item.key = key ∧
      StandsFor C records connector matchedUser item as

end Outcome

/-- Where a principal can be put. -/
inductive Class
  | company | account | department | withoutAccount | ignored

/-- A result puts an entry in a class. -/
def InClass (r : AutoResolution) (item : Permission) : Class → Prop
  | .company => ∃ name, entry r.resolved item.key = some (.company name)
  | .account => (∃ name userId, entry r.resolved item.key = some (.email name userId)) ∨
      item.principalType.isUser = true ∧ ∃ userId, entry r.users item.principalId = some userId
  | .department => ∃ name departmentId, entry r.resolved item.key = some (.name name departmentId)
  | .withoutAccount => item.principalType.isUser = true ∧ item.principalId ∈ r.withoutAccount
  | .ignored => item.key ∈ r.ignored

/-- Two results that no reader tells apart. -/
structure SameOutcome (r r' : AutoResolution) : Prop where
  users : ∀ id, entry r.users id = entry r'.users id
  departmentIds : ∀ departmentId, departmentId ∈ r.departmentIds ↔ departmentId ∈ r'.departmentIds
  resolved : ∀ key, entry r.resolved key = entry r'.resolved key
  withoutAccount : ∀ id, id ∈ r.withoutAccount ↔ id ∈ r'.withoutAccount
  ignored : ∀ key, key ∈ r.ignored ↔ key ∈ r'.ignored

/-- Why an entry is put in a class. -/
def Belongs (C : Characters) (records : Records) (connector : Connector)
    (matchedUser : String → Bool) (item : Permission) : Class → Prop
  | .company => wholeCompany item.toPrincipal = true
  | .account => Unknown matchedUser item ∧
      ∃ userId, FirstAccount C records connector.companyDomain item userId
  | .department => item.principalType.isGroup = true ∧
      ∃ departmentId, OnlyDepartment C records connector.companyDomain item departmentId
  | .withoutAccount => Unknown matchedUser item ∧ ∀ address ∈ emailsOf C item, ∀ userId,
      ¬ HasAccount C records connector.companyDomain address userId
  | .ignored => wholeCompany item.toPrincipal = false ∧ grantsNothing item.toPrincipal = true

/-- The rules grant what matches, and nothing else: what is resolved stays, what is left has at most
one class, and the order of the rows does not count. -/
structure MapsOnlyMatches (C : Characters) (records : Records) (connector : Connector)
    (principals : List Permission) (alreadyResolved : Principal → Bool)
    (matchedUser : String → Bool) (r : AutoResolution) : Prop where
  sound : Sound C records connector principals alreadyResolved matchedUser r
  resolvedUntouched : ∀ p : Principal, alreadyResolved p = true →
    entry r.resolved p.key = none ∧ p.key ∉ r.ignored
  matchedUntouched : ∀ id, matchedUser id = true →
    entry r.users id = none ∧ id ∉ r.withoutAccount
  outcome : Separate C records connector principals →
    Outcome C records connector principals alreadyResolved matchedUser r
  oneClass : Separate C records connector principals →
    ∀ item, Awaiting connector principals alreadyResolved item →
      ∀ c c', InClass r item c → InClass r item c' → c = c'
  order : Separate C records connector principals →
    ∀ records' : Records, ∀ principals', principals'.Perm principals →
      records'.people.Perm records.people → records'.departments.Perm records.departments →
        SameOutcome
          (autoResolve C records' connector principals' alreadyResolved matchedUser) r

section Rules

variable {C : Characters} {records : Records} {connector : Connector}
  {principals : List Permission} {alreadyResolved : Principal → Bool} {matchedUser : String → Bool}

/-- Nothing is granted, passed over or ignored without its reason. -/
theorem autoResolve_sound : Sound C records connector principals alreadyResolved matchedUser
    (autoResolve C records connector principals alreadyResolved matchedUser) where
  users e he := by
    obtain ⟨item, hawaiting, hunknown, hid, hhit⟩ := mem_users_iff.mp he
    exact ⟨item, hawaiting, hunknown, hid, firstAccount_of_hit hhit⟩
  departmentIds _ := mem_departmentIds_iff
  resolved e he := by
    obtain ⟨item, hawaiting, hkey, hcompany | ⟨hunknown, userId, hhit, has⟩ | hgroup⟩ :=
      mem_resolved_iff.mp he
    · exact ⟨item, hawaiting, hkey, .inl hcompany⟩
    · exact ⟨item, hawaiting, hkey,
        .inr (.inl ⟨hunknown, userId, firstAccount_of_hit hhit, has⟩)⟩
    · exact ⟨item, hawaiting, hkey, .inr (.inr hgroup)⟩
  withoutAccount _ := mem_withoutAccount_iff
  ignored _ := mem_ignored_iff

theorem mem_resolved_iff_standsFor (hone : OneAccount C records connector.companyDomain)
    {e : String × Resolution} :
    e ∈ (autoResolve C records connector principals alreadyResolved matchedUser).resolved ↔
      ∃ item, Awaiting connector principals alreadyResolved item ∧ item.key = e.1 ∧
        StandsFor C records connector matchedUser item e.2 := by
  simp only [mem_resolved_iff, hit_iff hone, StandsFor]

/-! ### One class each -/

variable {companyDomain : String} {item : Permission}

theorem FirstAccount.unique (hone : OneAccount C records companyDomain) {userId other : Id}
    (h : FirstAccount C records companyDomain item userId)
    (h' : FirstAccount C records companyDomain item other) : userId = other :=
  Option.some.inj (((hit_iff hone).mpr h).symm.trans ((hit_iff hone).mpr h'))

theorem OnlyDepartment.unique {departmentId other : Id}
    (h : OnlyDepartment C records companyDomain item departmentId)
    (h' : OnlyDepartment C records companyDomain item other) : departmentId = other :=
  Option.some.inj ((matchDepartment_iff.mpr h).symm.trans (matchDepartment_iff.mpr h'))

variable {p : Principal}

theorem not_wholeCompany (hkind : p.principalType.isUser = true ∨ p.principalType.isGroup = true)
    (hlink : COMPANY_LINKS.contains p.principalId = false) : wholeCompany p = false := by
  have htext : p.principalType.text ≠ "domain" := by
    intro htext
    rcases hkind with huser | hgroup
    · simp [PrincipalType.isUser, USER_TYPES, htext] at huser
    · simp [PrincipalType.isGroup, GROUP_TYPES, htext] at hgroup
  rw [wholeCompany, hlink]
  simp [COMPANY_TYPES, htext]

theorem StandsFor.unique (h : Separate C records connector principals) (hitem : item ∈ principals)
    {as as' : Resolution} (has : StandsFor C records connector matchedUser item as)
    (has' : StandsFor C records connector matchedUser item as') : as = as' := by
  -- the kinds are apart, and the id of a person or a group is that of no link
  have hpart : item.principalType.isUser = true ∨ item.principalType.isGroup = true →
      ¬ wholeCompany item.toPrincipal = true := by
    intro hkind hcompany
    rw [not_wholeCompany hkind (h.links item hitem hkind)] at hcompany
    cases hcompany
  have hapart : item.principalType.isUser = true → ¬ item.principalType.isGroup = true := by
    intro huser hgroup
    rw [PrincipalType.isGroup_of_isUser huser] at hgroup
    cases hgroup
  rcases has with ⟨hcompany, rfl⟩ | ⟨hunknown, userId, hfirst, rfl⟩ |
      ⟨hgroup, departmentId, honly, rfl⟩
    <;> rcases has' with ⟨hcompany', rfl⟩ | ⟨hunknown', other, hfirst', rfl⟩ |
      ⟨hgroup', other, honly', rfl⟩
  · rfl
  · exact absurd hcompany (hpart (.inl hunknown'.1))
  · exact absurd hcompany (hpart (.inr hgroup'))
  · exact absurd hcompany' (hpart (.inl hunknown.1))
  · rw [hfirst.unique h.accounts hfirst']
  · exact absurd hgroup' (hapart hunknown.1)
  · exact absurd hcompany' (hpart (.inr hgroup))
  · exact absurd hgroup (hapart hunknown'.1)
  · rw [honly.unique honly']

/-- The dictionaries of the result, key by key. -/
theorem autoResolve_outcome (h : Separate C records connector principals) :
    Outcome C records connector principals alreadyResolved matchedUser
      (autoResolve C records connector principals alreadyResolved matchedUser) where
  users id userId := by
    rw [entry_iff, mem_users_iff]
    · simp only [hit_iff h.accounts]
    · intro v v' hv hv'
      obtain ⟨item, hawaiting, hunknown, hid, hhit⟩ := mem_users_iff.mp hv
      obtain ⟨other, hawaiting', hunknown', hid', hhit'⟩ := mem_users_iff.mp hv'
      obtain rfl : item = other := h.people item hawaiting.2.1 other hawaiting'.2.1 hunknown.1
        hunknown'.1 (hid.trans hid'.symm)
      exact Option.some.inj (hhit.symm.trans hhit')
  resolved key as := by
    rw [entry_iff, mem_resolved_iff_standsFor h.accounts]
    intro v v' hv hv'
    obtain ⟨item, hawaiting, hkey, has⟩ := (mem_resolved_iff_standsFor h.accounts).mp hv
    obtain ⟨other, hawaiting', hkey', has'⟩ := (mem_resolved_iff_standsFor h.accounts).mp hv'
    obtain rfl : item = other := h.once item hawaiting.2.1 other hawaiting'.2.1
      (Principal.key_inj (hkey.trans hkey'.symm))
    exact has.unique h hawaiting.2.1 has'

theorem grantsNothing_of_kind
    (hkind : p.principalType.isUser = true ∨ p.principalType.isGroup = true) :
    grantsNothing p = false := by
  have htext : p.principalType.text ∈ USER_TYPES ++ GROUP_TYPES := by
    simpa [PrincipalType.isUser, PrincipalType.isGroup] using hkind
  simp only [USER_TYPES, GROUP_TYPES, List.cons_append, List.nil_append, List.mem_cons,
    List.not_mem_nil, or_false] at htext
  rcases htext with htext | htext | htext | htext <;> simp [grantsNothing, IGNORED_TYPES, htext]

theorem Belongs.unique (h : Separate C records connector principals) (hitem : item ∈ principals)
    {c c' : Class} (hc : Belongs C records connector matchedUser item c)
    (hc' : Belongs C records connector matchedUser item c') : c = c' := by
  have hcompany : item.principalType.isUser = true ∨ item.principalType.isGroup = true →
      wholeCompany item.toPrincipal = false := fun hkind =>
    not_wholeCompany hkind (h.links item hitem hkind)
  have hnothing : item.principalType.isUser = true ∨ item.principalType.isGroup = true →
      grantsNothing item.toPrincipal = false := grantsNothing_of_kind
  have hapart : item.principalType.isUser = true → item.principalType.isGroup = false :=
    PrincipalType.isGroup_of_isUser
  -- a person with an account has an address that has it
  have hfirst : ∀ userId, FirstAccount C records connector.companyDomain item userId →
      ¬ ∀ address ∈ emailsOf C item, ∀ userId,
        ¬ HasAccount C records connector.companyDomain address userId := by
    rintro userId ⟨before, address, after, hsplit, haccount, -⟩ hno
    exact hno address (by simp [hsplit]) userId haccount
  cases c <;> cases c' <;> grind [Belongs, Unknown]

theorem belongs_of_inClass (h : Separate C records connector principals)
    (hawaiting : Awaiting connector principals alreadyResolved item) {c : Class}
    (hc : InClass (autoResolve C records connector principals alreadyResolved matchedUser) item c) :
    Belongs C records connector matchedUser item c := by
  have houtcome : Outcome C records connector principals alreadyResolved matchedUser
      (autoResolve C records connector principals alreadyResolved matchedUser) :=
    autoResolve_outcome h
  have hstands : ∀ as, entry
      (autoResolve C records connector principals alreadyResolved matchedUser).resolved item.key =
        some as → StandsFor C records connector matchedUser item as := by
    intro as hentry
    -- what an entry of this key came from is this principal
    obtain ⟨other, hawaiting', hkey, has⟩ := (houtcome.resolved item.key as).mp hentry
    obtain rfl := h.once other hawaiting'.2.1 item hawaiting.2.1 (Principal.key_inj hkey)
    exact has
  cases c with
  | company =>
    obtain ⟨name, hentry⟩ := hc
    rcases hstands _ hentry with ⟨hcompany, -⟩ | ⟨-, userId, -, has⟩ | ⟨-, departmentId, -, has⟩
    · exact hcompany
    · cases has
    · cases has
  | account =>
    rcases hc with ⟨name, userId, hentry⟩ | ⟨huser, userId, hentry⟩
    · rcases hstands _ hentry with ⟨-, has⟩ | ⟨hunknown, userId, hfirst, -⟩ | ⟨-, _, -, has⟩
      · cases has
      · exact ⟨hunknown, userId, hfirst⟩
      · cases has
    · obtain ⟨other, hawaiting', hunknown, hid, hfirst⟩ := (houtcome.users _ userId).mp hentry
      obtain rfl := h.people other hawaiting'.2.1 item hawaiting.2.1 hunknown.1 huser hid
      exact ⟨hunknown, userId, hfirst⟩
  | department =>
    obtain ⟨name, departmentId, hentry⟩ := hc
    rcases hstands _ hentry with ⟨-, has⟩ | ⟨-, userId, -, has⟩ | ⟨hgroup, departmentId, honly, -⟩
    · cases has
    · cases has
    · exact ⟨hgroup, departmentId, honly⟩
  | withoutAccount =>
    obtain ⟨other, hawaiting', hunknown, hid, hno⟩ := mem_withoutAccount_iff.mp hc.2
    obtain rfl := h.people other hawaiting'.2.1 item hawaiting.2.1 hunknown.1 hc.1 hid
    exact ⟨hunknown, hno⟩
  | ignored =>
    obtain ⟨other, hawaiting', hkey, hpart, hnothing⟩ := mem_ignored_iff.mp hc
    rw [Principal.key_inj hkey] at hpart hnothing
    exact ⟨hpart, hnothing⟩

/-! ### The order of the rows -/

variable {records' : Records}

theorem HasAccount.perm (hpeople : records'.people.Perm records.people) :
    HasAccount C records' companyDomain = HasAccount C records companyDomain := by
  funext address userId
  simp only [HasAccount, hpeople.mem_iff]

theorem FirstAccount.perm (hpeople : records'.people.Perm records.people) :
    FirstAccount C records' companyDomain = FirstAccount C records companyDomain := by
  funext item userId
  simp only [FirstAccount, HasAccount.perm hpeople]

theorem OnlyDepartment.perm (hdepartments : records'.departments.Perm records.departments) :
    OnlyDepartment C records' companyDomain = OnlyDepartment C records companyDomain := by
  funext item departmentId
  have hnamed : ((companyDepartments records' companyDomain).filter fun d =>
        normalizeDepartmentName C d.name == normalizeGroupName C item.principalName).Perm
      ((companyDepartments records companyDomain).filter fun d =>
        normalizeDepartmentName C d.name == normalizeGroupName C item.principalName) :=
    (hdepartments.filter _).filter _
  -- a list of one row is that list in any order
  have hone : ∀ d, (companyDepartments records' companyDomain).filter (fun d =>
        normalizeDepartmentName C d.name == normalizeGroupName C item.principalName) = [d] ↔
      (companyDepartments records companyDomain).filter (fun d =>
        normalizeDepartmentName C d.name == normalizeGroupName C item.principalName) = [d] := by
    intro d
    rw [← List.perm_singleton, ← List.perm_singleton]
    exact ⟨hnamed.symm.trans, hnamed.trans⟩
  simp only [OnlyDepartment, hone]

variable {principals' : List Permission}

theorem Awaiting.perm (hprincipals : principals'.Perm principals) :
    Awaiting connector principals' alreadyResolved =
      Awaiting connector principals alreadyResolved := by
  funext item
  simp only [Awaiting, hprincipals.mem_iff]

theorem Separate.perm (h : Separate C records connector principals)
    (hprincipals : principals'.Perm principals) (hpeople : records'.people.Perm records.people) :
    Separate C records' connector principals' where
  once item hitem other hother :=
    h.once item (hprincipals.mem_iff.mp hitem) other (hprincipals.mem_iff.mp hother)
  people item hitem other hother :=
    h.people item (hprincipals.mem_iff.mp hitem) other (hprincipals.mem_iff.mp hother)
  links item hitem := h.links item (hprincipals.mem_iff.mp hitem)
  accounts a ha b hb := h.accounts a (hpeople.mem_iff.mp ha) b (hpeople.mem_iff.mp hb)

theorem StandsFor.perm (hpeople : records'.people.Perm records.people)
    (hdepartments : records'.departments.Perm records.departments) :
    StandsFor C records' connector matchedUser = StandsFor C records connector matchedUser := by
  funext item as
  simp only [StandsFor, FirstAccount.perm hpeople, OnlyDepartment.perm hdepartments]

theorem sameOutcome_of_perm (h : Separate C records connector principals)
    (hprincipals : principals'.Perm principals) (hpeople : records'.people.Perm records.people)
    (hdepartments : records'.departments.Perm records.departments) :
    SameOutcome (autoResolve C records' connector principals' alreadyResolved matchedUser)
      (autoResolve C records connector principals alreadyResolved matchedUser) where
  users id := by
    ext userId
    rw [(autoResolve_outcome (h.perm hprincipals hpeople)).users, (autoResolve_outcome h).users,
      Awaiting.perm hprincipals, FirstAccount.perm hpeople]
  departmentIds departmentId := by
    rw [mem_departmentIds_iff, mem_departmentIds_iff, Awaiting.perm hprincipals,
      OnlyDepartment.perm hdepartments]
    simp only [companyDepartments, List.mem_filter, hdepartments.mem_iff]
  resolved key := by
    ext as
    rw [(autoResolve_outcome (h.perm hprincipals hpeople)).resolved,
      (autoResolve_outcome h).resolved, Awaiting.perm hprincipals,
      StandsFor.perm hpeople hdepartments]
  withoutAccount id := by
    rw [mem_withoutAccount_iff, mem_withoutAccount_iff, Awaiting.perm hprincipals,
      HasAccount.perm hpeople]
  ignored key := by
    rw [mem_ignored_iff, mem_ignored_iff, Awaiting.perm hprincipals]

/-! ### What the rules grant -/

theorem resolved_untouched (hresolved : alreadyResolved p = true) :
    entry (autoResolve C records connector principals alreadyResolved matchedUser).resolved p.key =
        none ∧
      p.key ∉ (autoResolve C records connector principals alreadyResolved matchedUser).ignored := by
  have hawaiting : ∀ item, Awaiting connector principals alreadyResolved item →
      item.key ≠ p.key := by
    intro item hawaiting hkey
    have hopen := hawaiting.2.2.2
    rw [Principal.key_inj hkey, hresolved] at hopen
    cases hopen
  constructor
  · refine entry_eq_none_iff.mpr fun as hmem => ?_
    obtain ⟨item, hitem, hkey, -⟩ := mem_resolved_iff.mp hmem
    exact hawaiting item hitem hkey
  · intro hmem
    obtain ⟨item, hitem, hkey, -⟩ := mem_ignored_iff.mp hmem
    exact hawaiting item hitem hkey

theorem matched_untouched {id : String} (hmatched : matchedUser id = true) :
    entry (autoResolve C records connector principals alreadyResolved matchedUser).users id = none ∧
      id ∉ (autoResolve C records connector principals alreadyResolved
        matchedUser).withoutAccount := by
  have hunknown : ∀ item, Unknown matchedUser item → item.principalId ≠ id := by
    rintro item ⟨-, hunmatched⟩ rfl
    rw [hmatched] at hunmatched
    cases hunmatched
  constructor
  · refine entry_eq_none_iff.mpr fun userId hmem => ?_
    obtain ⟨item, -, hitem, hid, -⟩ := mem_users_iff.mp hmem
    exact hunknown item hitem hid
  · intro hmem
    obtain ⟨item, -, hitem, hid, -⟩ := mem_withoutAccount_iff.mp hmem
    exact hunknown item hitem hid

/-- **The automatic rules grant only what matches.** -/
theorem autoResolve_maps (C : Characters) (records : Records) (connector : Connector)
    (principals : List Permission) (alreadyResolved : Principal → Bool)
    (matchedUser : String → Bool) :
    MapsOnlyMatches C records connector principals alreadyResolved matchedUser
      (autoResolve C records connector principals alreadyResolved matchedUser) where
  sound := autoResolve_sound
  resolvedUntouched _ := resolved_untouched
  matchedUntouched _ := matched_untouched
  outcome := autoResolve_outcome
  oneClass h _ hitem _ _ hc hc' :=
    (belongs_of_inClass h hitem hc).unique h hitem.2.1 (belongs_of_inClass h hitem hc')
  order h _ _ := sameOutcome_of_perm h

end Rules

/-! ### Shared addresses and ids -/

def annTwice : Permission :=
  ⟨⟨ann.principalType, "5"⟩, "Ann ann@y.vn", "ann@x.vn", ""⟩

def annSite : Permission :=
  ⟨⟨⟨"siteUser", by decide⟩, "5"⟩, "Ann", "ann@y.vn", ""⟩

def annGuest : Permission :=
  ⟨⟨⟨"siteUser", by decide⟩, "5"⟩, "Ann", "ann@z.vn", ""⟩

def linkGroup : Permission :=
  ⟨⟨⟨"group", by decide⟩, "link:organization"⟩, "hr members", "", ""⟩

def hrDepartment : Department := ⟨1, "x.vn", "hr", true, by decide⟩

def itDepartment : Department := ⟨2, "x.vn", "it", true, by decide⟩

def twoAnns : Records where
  people := [⟨7, "ann@x.vn", "x.vn", true⟩, ⟨8, "ann@y.vn", "x.vn", true⟩]
  identities := []
  mappings := []
  departments := [hrDepartment, itDepartment]

def firstSync (principals : List Permission) : AutoResolution :=
  autoResolve asciiCharacters twoAnns annDrive principals (fun _ => false) fun _ => false

theorem autoResolve_maps_ann :
    Outcome asciiCharacters twoAnns annDrive [annTwice] (fun _ => false) (fun _ => false)
      (autoResolve asciiCharacters twoAnns annDrive [annTwice] (fun _ => false) fun _ => false) :=
  (autoResolve_maps asciiCharacters twoAnns annDrive [annTwice] (fun _ => false)
    fun _ => false).outcome
    { once := by simp
      people := by simp
      links := by
        intro item hitem _
        rw [List.mem_singleton.mp hitem]
        decide
      accounts := by
        intro a ha b hb _ _ _ _ hsame
        simp only [twoAnns, List.mem_cons, List.not_mem_nil, or_false] at ha hb
        rcases ha with rfl | rfl <;> rcases hb with rfl | rfl
        · rfl
        · exact absurd hsame (by decide +kernel)
        · exact absurd hsame (by decide +kernel)
        · rfl }

/-- Of two accounts a person is granted that of the first address; people of one id are told apart
by their order; and a group can pass for a link. -/
theorem first_address_grants :
    (emailsOf asciiCharacters annTwice = ["ann@x.vn", "ann@y.vn"] ∧
      accountOf asciiCharacters twoAnns "x.vn" "ann@x.vn" = some 7 ∧
      accountOf asciiCharacters twoAnns "x.vn" "ann@y.vn" = some 8 ∧
      entry (firstSync [annTwice]).users "5" = some 7) ∧
    (entry (firstSync [annTwice, annSite]).users "5" = some 8 ∧
      entry (firstSync [annSite, annTwice]).users "5" = some 7) ∧
    (entry (firstSync [annTwice, annGuest]).users "5" = some 7 ∧
      "5" ∈ (firstSync [annTwice, annGuest]).withoutAccount) ∧
    (entry (firstSync [linkGroup]).resolved linkGroup.key = some (.name "hr members" 1) ∧
      2 ∈ (firstSync [linkGroup]).departmentIds) := by
  decide +kernel

end QnscKb.Principals
