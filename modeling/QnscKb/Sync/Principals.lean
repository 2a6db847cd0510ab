import QnscKb.Sync.ProviderAcl

/-!
# Sync — Principals

Who the entries of a provider's access list stand for: the explicit mappings, the identity table and
the automatic rules of `src/domain/acl_auto.py`, as `_save_permissions` combines them, and the gate
that blocks an approval (`_unmapped_external_acl_principals`).

An absent text is empty and an absent type `unknown`, as every reader takes it.  The types of
principals have no colon, so that `type:id` reads back.
-/

namespace QnscKb.Principals
open QnscKb.Access QnscKb.Sync

/-! ### Rows -/

/-- `str.lower`, the database's `lower`, NFD, and the characters of category Mn. -/
structure Characters where
  lower : String → String
  sqlLower : String → String
  nfd : Text → Text
  mark : Char → Bool

/-- A provider's name for a kind of principal. -/
structure PrincipalType where
  text : String
  plain : ':' ∉ text.toList
  deriving DecidableEq

structure Principal where
  principalType : PrincipalType
  principalId : String
  deriving DecidableEq

/-- An entry of a provider's access list. -/
structure Permission extends Principal where
  principalName : String
  principalEmail : String
  principalLogin : String
  deriving DecidableEq

/-- The columns of a user the resolution reads. -/
structure Person where
  id : Id
  email : String
  companyDomain : String
  active : Bool
  deriving DecidableEq

structure ExternalIdentity where
  userId : Id
  provider : String
  subject : String
  email : Option String
  deriving DecidableEq

/-- `ExternalGroupMapping`. -/
structure Mapping where
  connectorId : Id
  principalType : PrincipalType
  principalId : String
  departmentId : Id
  active : Bool
  deriving DecidableEq

/-- The tables. -/
structure Records where
  people : List Person
  identities : List ExternalIdentity
  mappings : List Mapping
  departments : List Department

/-- A connector; `autoResolve` is `enabled`, the setting and its own. -/
structure Connector where
  id : Id
  system : String
  companyDomain : String
  autoResolve : Bool
  deriving DecidableEq

/-! ### Kinds -/

def USER_TYPES : List String := ["user", "siteUser"]
def GROUP_TYPES : List String := ["group", "siteGroup"]
def IGNORED_TYPES : List String := ["application", "device", "unknown"]
def COMPANY_TYPES : List String := ["domain"]
def COMPANY_LINKS : List String := ["link:organization", "link:anonymous"]

def PrincipalType.isUser (t : PrincipalType) : Bool := USER_TYPES.contains t.text

def PrincipalType.isGroup (t : PrincipalType) : Bool := GROUP_TYPES.contains t.text

def principalKey (principalType principalId : String) : String :=
  principalType ++ ":" ++ principalId

def Principal.key (p : Principal) : String :=
  principalKey p.principalType.text p.principalId

/-! ### Names -/

section Names

variable (C : Characters)

/-- `[a-z0-9]`. -/
def plainChar (c : Char) : Bool :=
  ('a' ≤ c && c ≤ 'z') || ('0' ≤ c && c ≤ '9')

/-- `fold`, as its words; a run of other characters is as many spaces, which `split` drops. -/
def foldWords (name : String) : List Text :=
  let undotted := name.toList.map fun c => if c = 'đ' then 'd' else if c = 'Đ' then 'D' else c
  let stripped := (C.nfd undotted).filter fun c => !C.mark c
  Text.words ((C.lower (String.ofList stripped)).toList.map fun c =>
    if plainChar c then c else ' ')

/-- `text.replace(pattern, " ")`, with the characters of a match still to be passed. -/
def replaceFrom (pattern : Text) : Nat → Text → Text
  | _, [] => []
  | n + 1, _ :: t => replaceFrom pattern n t
  | 0, c :: t =>
    if pattern.isPrefixOf (c :: t) then ' ' :: replaceFrom pattern (pattern.length - 1) t
    else c :: replaceFrom pattern 0 t

def ROLE_TOKENS : List Text :=
  ["members", "member", "owners", "owner", "visitors", "visitor", "thanh", "vien", "chu", "so",
    "huu", "khach"].map String.toList

def ROLE_PHRASES : List Text :=
  ["thanh vien", "chu so huu", "khach truy cap", "nguoi truy cap"].map String.toList

def DEPARTMENT_WORDS : List Text :=
  ["phong", "ban", "bo", "phan", "department", "dept", "team", "group", "nhom", "division"].map
    String.toList

def normalizeGroupName (name : String) : List Text :=
  let text := ROLE_PHRASES.foldl (fun text phrase => replaceFrom phrase 0 text)
    (Text.join [' '] (foldWords C name))
  let tokens := (Text.words text).reverse.dropWhile fun token => ROLE_TOKENS.contains token
  tokens.reverse.filter fun token => !DEPARTMENT_WORDS.contains token

def normalizeDepartmentName (name : String) : List Text :=
  (foldWords C name).filter fun token => !DEPARTMENT_WORDS.contains token

/-- `match_department`; names are compared word by word. -/
def matchDepartment (groupName : String) (departments : List Department) : Option Id :=
  let wanted := normalizeGroupName C groupName
  if wanted.isEmpty then none
  else
    match departments.filter fun d => normalizeDepartmentName C d.name == wanted with
    | [d] => some d.id
    | _ => none

end Names

/-! ### Addresses -/

/-- `[A-Za-z0-9._%+'-]`. -/
def localChar (c : Char) : Bool :=
  c.isAlphanum || ['.', '_', '%', '+', '\'', '-'].contains c

/-- `[A-Za-z0-9-]`. -/
def domainChar (c : Char) : Bool := c.isAlphanum || c == '-'

/-- `(?:\.[A-Za-z0-9-]+)*` at the start of a text of at most so many characters. -/
def dottedLabels : Nat → Text → Text
  | n + 1, '.' :: t =>
    match t.takeWhile domainChar with
    | [] => []
    | label => '.' :: (label ++ dottedLabels n (t.drop label.length))
  | _, _ => []

/-- `_EMAIL` at the start of a text.  No class shares a character with what must follow it, so each
repetition takes all it can. -/
def addressAt (t : Text) : Option Text :=
  let name := t.takeWhile localChar
  match name, t.drop name.length with
  | _ :: _, '@' :: rest =>
    let label := rest.takeWhile domainChar
    let labels := dottedLabels rest.length (rest.drop label.length)
    if label.isEmpty || labels.isEmpty then none else some (name ++ '@' :: (label ++ labels))
  | _, _ => none

/-- `_EMAIL.finditer`, with the characters of a match still to be passed. -/
def addressesFrom : Nat → Text → List Text
  | _, [] => []
  | n + 1, _ :: t => addressesFrom n t
  | 0, c :: t =>
    match addressAt (c :: t) with
    | some address => address :: addressesFrom (address.length - 1) t
    | none => addressesFrom 0 t

/-- `raw.rsplit("|", 1)[-1]`. -/
def afterBar (t : Text) : Text := (t.reverse.takeWhile fun c => c != '|').reverse

def emailsOf (C : Characters) (item : Permission) : List String :=
  let sources := [item.principalEmail.toList, afterBar item.principalLogin.toList,
    item.principalId.toList, item.principalName.toList]
  ((sources.flatMap (addressesFrom 0)).map fun address =>
    C.lower (String.ofList address)).reverse.dedup.reverse

/-! ### `auto_resolve` -/

/-- How a principal was resolved. -/
inductive Resolution
  | company (name : String)
  | email (name : String) (userId : Id)
  | name (name : String) (departmentId : Id)
  deriving DecidableEq, Repr

/-- `AutoResolution`; of two entries of one key the later one counts. -/
structure AutoResolution where
  users : List (String × Id)
  departmentIds : List Id
  resolved : List (String × Resolution)
  withoutAccount : List String
  ignored : List String
  deriving DecidableEq

def companyDepartments (records : Records) (companyDomain : String) : List Department :=
  records.departments.filter fun d => d.companyDomain == companyDomain && d.active

/-- `users_by_email`, at one address. -/
def accountOf (C : Characters) (records : Records) (companyDomain address : String) : Option Id :=
  (records.people.reverse.find? fun person => C.sqlLower person.email == address &&
    person.companyDomain == companyDomain && person.active).map (·.id)

/-- `hit`: the account of the first address that has one. -/
def hit (C : Characters) (records : Records) (companyDomain : String) (item : Permission) :
    Option Id :=
  (emailsOf C item).findSome? fun address => accountOf C records companyDomain address

def wholeCompany (p : Principal) : Bool :=
  COMPANY_TYPES.contains p.principalType.text || COMPANY_LINKS.contains p.principalId

def grantsNothing (p : Principal) : Bool :=
  IGNORED_TYPES.contains p.principalType.text ||
    p.principalType.text == "link" && !COMPANY_LINKS.contains p.principalId

section AutoResolve

variable (C : Characters) (records : Records) (connector : Connector)

def resolveCompany (item : Permission) : Option (String × Resolution) :=
  if wholeCompany item.toPrincipal then some (item.key, .company item.principalName) else none

def resolvePerson (item : Permission) : Option (String × Resolution) :=
  (hit C records connector.companyDomain item).map fun userId =>
    (item.key, .email item.principalName userId)

def resolveGroup (item : Permission) : Option (String × Resolution) :=
  (matchDepartment C item.principalName
    (companyDepartments records connector.companyDomain)).map fun departmentId =>
      (item.key, .name item.principalName departmentId)

def autoResolve (principals : List Permission) (alreadyResolved : Principal → Bool)
    (matchedUser : String → Bool) : AutoResolution :=
  if !connector.autoResolve then ⟨[], [], [], [], []⟩
  else
    let pending := principals.filter fun item =>
      item.principalId != "" && !alreadyResolved item.toPrincipal
    let unmatched := pending.filter fun item =>
      item.principalType.isUser && !matchedUser item.principalId
    let groups := pending.filter fun item => item.principalType.isGroup
    let departments := companyDepartments records connector.companyDomain
    { users := unmatched.filterMap fun item =>
        (hit C records connector.companyDomain item).map fun userId => (item.principalId, userId)
      departmentIds :=
        (groups.filterMap fun item => matchDepartment C item.principalName departments) ++
          if pending.any fun item => wholeCompany item.toPrincipal then departments.map (·.id) else []
      resolved := pending.filterMap resolveCompany ++
        unmatched.filterMap (resolvePerson C records connector) ++
        groups.filterMap (resolveGroup C records connector)
      withoutAccount := (unmatched.filter fun item =>
        (hit C records connector.companyDomain item).isNone).map (·.principalId)
      ignored := (pending.filter fun item =>
        !wholeCompany item.toPrincipal && grantsNothing item.toPrincipal).map (·.key) }

end AutoResolve

/-! ### `_save_permissions` -/

def sortedTexts (texts : List String) : List String :=
  texts.insertionSort fun x y => x ≤ y

def identityProvider (system : String) : String :=
  if system = "sharepoint" ∨ system = "onedrive" then "microsoft_entra" else system

section SavePermissions

variable (C : Characters) (records : Records) (connector : Connector)
  (permissions : List Permission)

/-- `observed_principals`. -/
def observed : List Principal :=
  ((permissions.filter fun item => item.principalId != "").map (·.toPrincipal)).dedup

def mappings : List Mapping :=
  records.mappings.filter fun m => m.connectorId == connector.id && m.active &&
    ((observed permissions).map (·.principalId)).contains m.principalId &&
    records.departments.any fun d => d.id == m.departmentId &&
      d.companyDomain == connector.companyDomain

/-- `(principal_type, principal_id) in mapped_by_principal`. -/
def isMapped (p : Principal) : Bool :=
  (mappings records connector permissions).any fun m =>
    m.principalType == p.principalType && m.principalId == p.principalId

def userIds : List String :=
  (((observed permissions).filter fun p => p.principalType.isUser).map (·.principalId)).dedup

def identities : List ExternalIdentity :=
  records.identities.filter fun i => i.provider == identityProvider connector.system &&
    ((userIds permissions).contains i.subject ||
      i.email.any fun email =>
        ((userIds permissions).map C.lower).contains (C.sqlLower email)) &&
    records.people.any fun person => person.id == i.userId &&
      person.companyDomain == connector.companyDomain && person.active

/-- `mapped_user_ids`, before the automatic rules; of two entries the later one counts. -/
def matchedUsers : List (String × Id) :=
  (identities C records connector permissions).map (fun i => (i.subject, i.userId)) ++
    ((identities C records connector permissions).filterMap fun i =>
      match i.email with
      | some email => if email = "" then none else some (C.lower email, i.userId)
      | none => none) ++
    if connector.system = "google_drive" then
      (records.people.filter fun person =>
        ((userIds permissions).map C.lower).contains (C.sqlLower person.email) &&
          person.companyDomain == connector.companyDomain && person.active).map
        fun person => (C.lower person.email, person.id)
    else []

/-- `principal_id in mapped_user_ids`. -/
def isMatched (principalId : String) : Bool :=
  (matchedUsers C records connector permissions).any fun entry => entry.1 == principalId

/-- Known to the identity table, or by an address of it in lower case. -/
def hasIdentity (p : Principal) : Bool :=
  p.principalType.isUser && (isMatched C records connector permissions p.principalId ||
    isMatched C records connector permissions (C.lower p.principalId))

def alreadyResolved (p : Principal) : Bool :=
  isMapped records connector permissions p || hasIdentity C records connector permissions p

def auto : AutoResolution :=
  autoResolve C records connector permissions (alreadyResolved C records connector permissions)
    (isMatched C records connector permissions)

/-- `mapped_user_ids`, with the automatic rules. -/
def mappedUsers : List (String × Id) :=
  matchedUsers C records connector permissions ++ (auto C records connector permissions).users

def isMappedUser (principalId : String) : Bool :=
  (mappedUsers C records connector permissions).any fun entry => entry.1 == principalId

def unmappedGroup (p : Principal) : Bool :=
  p.principalType.isGroup && !isMapped records connector permissions p &&
    !((auto C records connector permissions).resolved.map (·.1)).contains p.key

def unmappedUser (p : Principal) : Bool :=
  p.principalType.isUser && !isMappedUser C records connector permissions p.principalId &&
    !(auto C records connector permissions).withoutAccount.contains p.principalId &&
    !isMapped records connector permissions p

def unmappedOther (p : Principal) : Bool :=
  !p.principalType.isGroup && !p.principalType.isUser &&
    !isMapped records connector permissions p &&
    !((auto C records connector permissions).resolved.map (·.1) ++
      (auto C records connector permissions).ignored).contains p.key

/-- The keys of `next_metadata` an approval and the intersection read, over those that were there. -/
def savePermissions (previous : SourceAcl) : SourceAcl where
  mappedDepartmentIds :=
    ((mappings records connector permissions).map (·.departmentId) ++
      (auto C records connector permissions).departmentIds).dedup
  mappedSourceUserIds := (userIds permissions).filterMap fun id =>
    ((mappedUsers C records connector permissions).reverse.find? fun entry => entry.1 == id).map
      (·.2)
  unmappedGroupIds := sortedTexts (((observed permissions).filter
    (unmappedGroup C records connector permissions)).map (·.principalId))
  unmappedSourceUserIds := sortedTexts (((observed permissions).filter
    (unmappedUser C records connector permissions)).map (·.principalId))
  unmappedPrincipalIds := sortedTexts (((observed permissions).filter
    (unmappedOther C records connector permissions)).map (·.key))
  providerAclPresent := true
  sharepointAclPresent := previous.sharepointAclPresent || connector.system == "sharepoint"

end SavePermissions

def unmappedExternalAclPrincipals (acl : SourceAcl) : List String :=
  sortedTexts ((((acl.unmappedGroupIds.filter fun item => item != "").map (principalKey "group")) ++
    ((acl.unmappedSourceUserIds.filter fun item => item != "").map (principalKey "user")) ++
    acl.unmappedPrincipalIds.filter fun item => item != "").dedup)

end QnscKb.Principals
