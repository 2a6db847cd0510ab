import QnscKb.Access.ArticleFilters
import QnscKb.Lib.Runs

/-!
# History — Model

An article with its version rows, and the operations that write both: `create_article`,
`update_article` and `restore_version` of `ArticleService` (`src/domain/articles.py`), and what
`GovernanceService.approve_draft` publishes (`src/domain/governance.py`).  An operation is its
checks in their order, with the rows, audit entries and events it makes, or its refusal.
-/

namespace QnscKb.History

open Access

/-! ### Rows -/

/-- An article with the columns a version records. -/
structure Article extends Access.Article where
  title : String
  bodyMd : String
  domain : String
  type : String
  language : String
  externalId : Option String
  version : Nat
  nextReview : Option Nat
  tags : List String
  deriving DecidableEq

/-- `ArticleVersion.snapshot`; `none` for a key that is absent or null. -/
structure Snapshot where
  title : Option String
  bodyMd : Option String
  originalBodyMd : Option String
  dept : Option String
  departmentIds : Option (List Id)
  domain : Option String
  type : Option String
  sensitivity : Option Sensitivity
  visibility : Option Visibility
  explicitUserIds : Option (List Id)
  deniedUserIds : Option (List Id)
  language : Option String
  externalId : Option (Option String)
  tags : Option (List String)
  restoredFromVersion : Option Nat
  deriving DecidableEq

structure ArticleVersion where
  version : Nat
  snapshot : Snapshot
  deriving DecidableEq

structure Record where
  article : Article
  versions : List ArticleVersion
  deriving DecidableEq

def Article.snapshot (a : Article) : Snapshot where
  title := some a.title
  bodyMd := some a.bodyMd
  originalBodyMd := none
  dept := some a.dept
  departmentIds := none
  domain := some a.domain
  type := some a.type
  sensitivity := some a.sensitivity
  visibility := none
  explicitUserIds := none
  deniedUserIds := none
  language := some a.language
  externalId := none
  tags := some a.tags
  restoredFromVersion := none

/-- An entry of the audit log about the article. -/
inductive Audit
  | create | update | permissionChange | publish | restoreVersion
  deriving DecidableEq, Repr

inductive DomainEvent
  | articlePublished | articleUpdated | permissionChanged
  deriving DecidableEq, Repr

structure Effects where
  audits : List Audit
  events : List DomainEvent
  deriving DecidableEq, Repr

/-- An `HTTPException`, or a unique index that refuses a row. -/
inductive Failure
  | refused (statusCode : Nat) (detail : String)
  | integrity
  deriving DecidableEq, Repr

/-! ### Departments -/

/-- The departments table; `sameName` compares names as the database does, in lower case. -/
structure Directory where
  departments : List Department
  sameName : String → String → Bool

def resolveActiveDepartment (d : Directory) (company name : String) : Except Failure Department :=
  match normalizeDepartmentName (some name) with
  | none => .error (.refused 422 "A department is required")
  | some canonical =>
    match d.departments.find? fun row =>
        row.companyDomain == company && row.active && d.sameName row.name canonical with
    | none => .error (.refused 422 "Department does not exist or is inactive")
    | some row => .ok row

def departmentsByIds (d : Directory) (ids : List Id) (company : String) : List Department :=
  d.departments.filter fun row =>
    ids.contains row.id && (company == "" || row.companyDomain == company)

def resolveAudience (d : Directory) (ids : List Id) (company : String) :
    Except Failure (List Department) :=
  let found := departmentsByIds d ids company
  if (found.map (·.id)).dedup.length ≠ ids.dedup.length then
    .error (.refused 422 "One or more departments do not exist")
  else .ok found

/-- The four sensitivities a request may name. -/
def parseSensitivity (text : String) : Option Sensitivity :=
  if text = "public" then some .publicContent
  else if text = "internal" then some .internal
  else if text = "confidential" then some .confidential
  else if text = "restricted" then some .restricted
  else none

/-! ### `create_article` -/

structure CreateRequest where
  title : String
  bodyMd : String
  dept : String
  domain : String
  type : String
  sensitivity : String
  tags : List String
  language : String
  audienceDepartmentIds : Option (List Id)
  nextReview : Option Nat
  externalId : Option String
  originalBodyMd : Option String
  publishWithoutReview : Bool

/-- The article of a request, once its department and audience are resolved. -/
def createdArticle (u : User) (id : Id) (req : CreateRequest) (department : Department)
    (audiences : List Department) (sensitivity : Sensitivity) (published : Bool) : Article where
  id := id
  dept := department.name
  companyDomain := u.companyDomain
  sensitivity := sensitivity
  visibility := .department
  ownerId := some u.id
  status := if published then .published else .draft
  lifecycleStatus := .active
  indexStatus := .pending
  departments := audiences
  userPermissions := []
  sources := []
  title := req.title
  bodyMd := req.bodyMd
  domain := req.domain
  type := req.type
  language := req.language
  externalId := req.externalId
  version := 1
  nextReview := req.nextReview
  tags := req.tags

/-- The audience of a new article: its department, and the ones named beside it. -/
def createdAudience (d : Directory) (u : User) (req : CreateRequest) (department : Department) :
    Except Failure (List Department) :=
  match req.audienceDepartmentIds with
  | none | some [] => .ok [department]
  | some ids =>
    match resolveAudience d ids u.companyDomain with
    | .error e => .error e
    | .ok found => .ok (department :: found.filter fun item => item.id != department.id)

def createArticle (d : Directory) (u : User) (id : Id) (req : CreateRequest) :
    Except Failure (Record × Effects) :=
  match resolveActiveDepartment d u.companyDomain req.dept with
  | .error e => .error e
  | .ok department =>
    let draftResource : Resource := ⟨u.companyDomain, [], some department.name, some u.id⟩
    if !covers u .articleCreate draftResource then
      .error (.refused 403 "Not authorized to create articles in this department")
    else
      match createdAudience d u req department, parseSensitivity req.sensitivity with
      | .error e, _ => .error e
      | .ok _, none => .error (.refused 422 "Invalid article sensitivity")
      | .ok audiences, some sensitivity =>
        let published := covers u .articlePublish draftResource || req.publishWithoutReview
        let a := createdArticle u id req department audiences sensitivity published
        let original := match req.originalBodyMd with
          | none | some "" => a.bodyMd
          | some text => text
        if ¬req.tags.Nodup then .error .integrity
        else .ok
          ({ article := a
             versions := [⟨1, { a.snapshot with originalBodyMd := some original }⟩] },
            { audits := .create :: if published then [.publish] else []
              events := if published then [.articlePublished] else [] })

/-! ### `update_article` -/

structure UpdateRequest where
  title : Option String
  bodyMd : Option String
  dept : Option String
  domain : Option String
  type : Option String
  sensitivity : Option String
  language : Option String
  status : Option ArticleStatus
  tags : Option (List String)
  audienceDepartmentIds : Option (List Id)
  nextReview : Option Nat

def canEditArticle (u : User) (a : Access.Article) : Bool :=
  [Scope.own, .department, .company].any fun scope =>
    hasPermission u .articleEdit (some a.resource) scope

/-- `article.edit` over a department the article would be of, in a wider scope than the own one. -/
def editsIn (u : User) (a : Access.Article) (dept : String) : Bool :=
  [Scope.department, .company, .global].any fun scope =>
    hasPermission u .articleEdit (some ⟨a.companyDomain, [], some dept, a.ownerId⟩) scope

/-- `ArticleRepository.get_by_id` for a user finds the article, and it is not deleted. -/
def opens (d : Directory) (u : User) (a : Access.Article) : Bool :=
  listAdmits d.departments u a && a.status != .deleted

def proposedAudiences (d : Directory) (a : Article) (req : UpdateRequest) :
    Except Failure (List Department) :=
  match req.audienceDepartmentIds with
  | none => .ok a.departments
  | some ids =>
    match resolveAudience d ids a.companyDomain with
    | .error e => .error e
    | .ok [] => .error (.refused 422 "An article requires at least one department")
    | .ok found => .ok found

/-- The checks of `update_article`, and the audience they resolve. -/
def checkUpdate (d : Directory) (u : User) (a : Article) (req : UpdateRequest) :
    Except Failure (List Department) :=
  if !opens d u a.toArticle then .error (.refused 404 "Article not found")
  else if !canEditArticle u a.toArticle then
    .error (.refused 403 "Not authorized to edit this article")
  else if req.sensitivity.any fun text => (parseSensitivity text).isNone then
    .error (.refused 422 "Invalid article sensitivity")
  else if req.dept.getD a.dept ≠ a.dept ∧ editsIn u a.toArticle (req.dept.getD a.dept) = false then
    .error (.refused 403 "Not authorized to move an article to this department")
  else
    match proposedAudiences d a req with
    | .error e => .error e
    | .ok audiences =>
      if req.status.any fun status => status != a.status then
        .error (.refused 400
          "Article status changes must be approved through the review workflow")
      else if ¬(req.tags.getD []).Nodup then .error .integrity
      else .ok audiences

def sameDepartments (xs ys : List Department) : Bool :=
  (xs.all fun x => (ys.map (·.id)).contains x.id) && ys.all fun y => (xs.map (·.id)).contains y.id

def UpdateRequest.newSensitivity (req : UpdateRequest) (a : Article) : Sensitivity :=
  (req.sensitivity.bind parseSensitivity).getD a.sensitivity

def permissionsChanged (a : Article) (req : UpdateRequest) (audiences : List Department) : Bool :=
  req.newSensitivity a != a.sensitivity || !sameDepartments a.departments audiences ||
    req.dept.getD a.dept != a.dept

def contentChanged (a : Article) (req : UpdateRequest) : Bool :=
  req.language.getD a.language != a.language || req.title.getD a.title != a.title ||
    req.bodyMd.getD a.bodyMd != a.bodyMd || req.dept.getD a.dept != a.dept ||
    req.domain.getD a.domain != a.domain || req.type.getD a.type != a.type

def updatedArticle (a : Article) (req : UpdateRequest) (audiences : List Department) : Article :=
  { a with
    sensitivity := req.newSensitivity a
    language := req.language.getD a.language
    departments := if sameDepartments a.departments audiences then a.departments else audiences
    title := req.title.getD a.title
    bodyMd := req.bodyMd.getD a.bodyMd
    dept := req.dept.getD a.dept
    domain := req.domain.getD a.domain
    type := req.type.getD a.type
    nextReview := req.nextReview.or a.nextReview
    version := if contentChanged a req then a.version + 1 else a.version
    tags := req.tags.getD a.tags }

def updateArticle (d : Directory) (u : User) (r : Record) (req : UpdateRequest) :
    Except Failure (Record × Effects) :=
  match checkUpdate d u r.article req with
  | .error e => .error e
  | .ok audiences =>
    let a := updatedArticle r.article req audiences
    let permissions := permissionsChanged r.article req audiences
    let content := contentChanged r.article req
    .ok
      ({ article := a
         versions := r.versions ++ if content then [⟨a.version, a.snapshot⟩] else [] },
        { audits := (if permissions then [.permissionChange] else []) ++
            if content then [.update] else []
          events := (if permissions then [.permissionChanged] else []) ++
            if content && a.status == .published then [.articleUpdated] else [] })

/-- The fields a restore copies from a snapshot, and the tags. -/
def Snapshot.copyTo (s : Snapshot) (a : Article) : Article :=
  { a with
    title := s.title.getD a.title
    bodyMd := s.bodyMd.getD a.bodyMd
    dept := s.dept.getD a.dept
    domain := s.domain.getD a.domain
    type := s.type.getD a.type
    sensitivity := s.sensitivity.getD a.sensitivity
    language := s.language.getD a.language
    tags := s.tags.getD a.tags }

def restoredArticle (a : Article) (s : Snapshot) : Article :=
  { s.copyTo a with
    version := a.version + 1
    lifecycleStatus := .active
    indexStatus := .pending }

/-- The checks of `restore_version`, and the version they find. -/
def checkRestore (d : Directory) (u : User) (r : Record) (number : Nat) :
    Except Failure ArticleVersion :=
  if !opens d u r.article.toArticle then .error (.refused 404 "Article not found")
  else if !canEditArticle u r.article.toArticle then
    .error (.refused 403 "Not authorized to restore this article version")
  else
    match r.versions.find? fun row => row.version == number with
    | none => .error (.refused 404 "Version not found")
    | some row =>
      if row.version = r.article.version then
        .error (.refused 409 "This version is already active")
      else if ¬(row.snapshot.tags.getD []).Nodup then .error .integrity
      else .ok row

def restoreVersion (d : Directory) (u : User) (r : Record) (number : Nat) :
    Except Failure (Record × Effects) :=
  match checkRestore d u r number with
  | .error e => .error e
  | .ok row =>
    let a := restoredArticle r.article row.snapshot
    .ok
      ({ article := a
         versions := r.versions ++
           [⟨a.version, { a.snapshot with restoredFromVersion := some number }⟩] },
        { audits := [.restoreVersion]
          events := if a.status == .published then [.articleUpdated] else [] })

/-! ### `approve_draft` -/

/-- What the checks of an approval leave to be written: the submitted values, resolved, and for a
connector document its mapped audience. -/
structure Approval where
  title : String
  restructuredBodyMd : Option String
  summary : Option String
  sourceRef : String
  companyDomain : String
  dept : String
  departments : List Department
  category : String
  sensitivity : Sensitivity
  visibility : Visibility
  domain : Option String
  language : Option String
  externalId : Option String
  /-- Another article of the company has the external id. -/
  externalIdTaken : Bool
  nextReview : Option Nat
  tags : Option (List String)
  explicitUserIds : List Id
  deniedUserIds : List Id
  externalSourceUserIds : List Id
  connectorSource : Option String
  /-- `explicit_user_ids` has taken in the users a connector mapped. -/
  mapped : ∀ i ∈ externalSourceUserIds, i ∈ explicitUserIds

/-- `value or fallback` on a text. -/
def orElse (value : Option String) (fallback : String) : String :=
  match value with
  | none | some "" => fallback
  | some text => text

/-- `body_md` of the published article. -/
def Approval.bodyMd (p : Approval) : String :=
  orElse p.restructuredBodyMd <| orElse p.summary <|
    "Draft imported from " ++ p.sourceRef ++ ". Content pending edit."

def Approval.draftTags (p : Approval) : List String :=
  (((p.tags.getD []).map strip).filter fun tag => tag != "").eraseDups.take 20

/-- An allow row stamped with its connector where the connector mapped the user. -/
def Approval.allowRow (p : Approval) (i : Id) : ArticleUserPermission :=
  ⟨i, .allow, if p.externalSourceUserIds.contains i then p.connectorSource else none⟩

def denyRow (i : Id) : ArticleUserPermission := ⟨i, .deny, none⟩

def managed (item : ArticleUserPermission) : Bool :=
  item.source.any fun source => SOURCE_ACL_PROVIDERS.contains source

/-- The rows of an article that is overwritten: what providers manage, what the connector mapped
beside it, and the submitted overrides. -/
def Approval.overwrittenPermissions (p : Approval) (a : Article) : List ArticleUserPermission :=
  let retained := a.userPermissions.filter managed
  let sourceAllowIds := (retained.filter fun item => item.effect == .allow).map (·.userId)
  retained ++
    (p.externalSourceUserIds.filter fun i => !sourceAllowIds.contains i).map
      (fun i => ⟨i, .allow, p.connectorSource⟩) ++
    (p.explicitUserIds.filter fun i => !p.externalSourceUserIds.contains i).map
      (fun i => ⟨i, .allow, none⟩) ++
    p.deniedUserIds.map denyRow

def overwrittenArticle (a : Article) (p : Approval) : Article :=
  { a with
    title := p.title
    bodyMd := p.bodyMd
    externalId := p.externalId.or a.externalId
    dept := p.dept
    departments := p.departments
    domain := orElse p.domain a.domain
    type := p.category
    sensitivity := p.sensitivity
    visibility := p.visibility
    language := orElse p.language a.language
    nextReview := p.nextReview.or a.nextReview
    status := .published
    lifecycleStatus := .active
    indexStatus := .pending
    version := a.version + 1
    userPermissions := p.overwrittenPermissions a
    tags := if p.tags.isNone then a.tags else p.draftTags }

def publishedArticle (u : User) (id : Id) (p : Approval) : Article where
  id := id
  dept := p.dept
  companyDomain := p.companyDomain
  sensitivity := p.sensitivity
  visibility := p.visibility
  ownerId := some u.id
  status := .published
  lifecycleStatus := .active
  indexStatus := .pending
  departments := p.departments
  userPermissions := p.explicitUserIds.map p.allowRow ++ p.deniedUserIds.map denyRow
  sources := []
  title := p.title
  bodyMd := p.bodyMd
  domain := orElse p.domain "Ingestion"
  type := p.category
  language := orElse p.language "vi"
  externalId := p.externalId
  version := 1
  nextReview := p.nextReview
  tags := p.draftTags

def Approval.snapshot (p : Approval) (a : Article) : Snapshot :=
  { a.snapshot with
    departmentIds := some (p.departments.map (·.id))
    visibility := some a.visibility
    explicitUserIds := some p.explicitUserIds
    deniedUserIds := some p.deniedUserIds
    externalId := some a.externalId }

/-- `permission_state_before != permission_state_after`; the code compares the lists sorted. -/
def Approval.movesPermissions (p : Approval) (a : Article) : Bool :=
  a.dept != p.dept || !(a.departments.map (·.id)).isPerm (p.departments.map (·.id)) ||
    a.sensitivity != p.sensitivity || a.visibility != p.visibility ||
    !(a.userPermissions.map fun item => (item.userId, item.effect)).isPerm
      (p.explicitUserIds.map (fun i => (i, Effect.allow)) ++
        p.deniedUserIds.map fun i => (i, Effect.deny))

/-- The checks of `approve_draft` on the article it is to overwrite. -/
def checkOverwrite (d : Directory) (u : User) (a : Article) (p : Approval) : Except Failure Unit :=
  if !listAdmits d.departments u a.toArticle ||
      (a.companyDomain != u.companyDomain && !hasPermission u .articleRead none .global) then
    .error (.refused 403 "The selected update target is not accessible")
  else if !canViewArticle u a.toArticle ||
      !(covers u .articleEdit a.resource || covers u .articlePublish a.resource) then
    .error (.refused 403 "Not authorized to supersede the selected article")
  else if a.lifecycleStatus ≠ .active then
    .error (.refused 409 "The selected update target is already inactive")
  else if p.externalIdTaken then
    .error (.refused 409 "An article with this external ID already exists in this company")
  else .ok ()

def approveUpdate (d : Directory) (u : User) (r : Record) (p : Approval) :
    Except Failure (Record × Effects) :=
  match checkOverwrite d u r.article p with
  | .error e => .error e
  | .ok () =>
    let a := overwrittenArticle r.article p
    .ok
      ({ article := a
         versions := r.versions ++ [⟨a.version, p.snapshot a⟩] },
        { audits := .update ::
            (if p.movesPermissions r.article then [.permissionChange] else []) ++ [.publish]
          events := [.articleUpdated] })

def approveNew (u : User) (id : Id) (p : Approval) : Except Failure (Record × Effects) :=
  if p.externalIdTaken then
    .error (.refused 409 "An article with this external ID already exists in this company")
  else
    let a := publishedArticle u id p
    .ok
      ({ article := a
         versions := [⟨1, p.snapshot a⟩] },
        { audits := [.create, .publish]
          events := [.articlePublished] })

/-! ### Runs -/

inductive Action
  | create (u : User) (id : Id) (req : CreateRequest)
  | approveNew (u : User) (id : Id) (p : Approval)
  | update (u : User) (req : UpdateRequest)
  | restore (u : User) (number : Nat)
  | approveUpdate (u : User) (p : Approval)

def Except.committed {α : Type} : Except Failure (Record × α) → Option (Record × α)
  | .ok out => some out
  | .error _ => none

/-- A successful operation on the article; there is none before its creation. -/
def perform (d : Directory) : Option Record → Action → Option (Record × Effects)
  | none, .create u id req => Except.committed (createArticle d u id req)
  | none, .approveNew u id p => Except.committed (History.approveNew u id p)
  | some r, .update u req => Except.committed (updateArticle d u r req)
  | some r, .restore u number => Except.committed (restoreVersion d u r number)
  | some r, .approveUpdate u p => Except.committed (History.approveUpdate d u r p)
  | _, _ => none

def next (d : Directory) (s : Option Record) (a : Action) : Option (Action × Option Record) :=
  (perform d s a).map fun out => (a, some out.1)

def Initial (s : Option Record) : Prop := s = none

abbrev Step (d : Directory) : Option Record → Action → Option Record → Prop := Runs.By (next d)

end QnscKb.History
