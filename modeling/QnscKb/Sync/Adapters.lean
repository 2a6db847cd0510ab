import QnscKb.Lib.Cursor
import QnscKb.Lib.Text

/-!
# Sync — Adapters

The change feeds of the provider adapters (`src/domain/connector_adapters.py`): Microsoft Graph's
delta for SharePoint and OneDrive, the changes list for Google Drive, both normalized and read page
by page (`Cursor.follow`).  Of the `metadata` of a change only whether it is empty is kept; the memo
of `_parents_of` is left out, as it answers what the provider does.
-/

namespace QnscKb.Sync
open Cursor

inductive ChangeState
  | active | deleted
  deriving DecidableEq, Repr

structure NormalizedChange where
  externalId : String
  corpusId : Option String
  name : Text
  state : ChangeState
  contentChanged : Bool
  permissionsChanged : Bool
  moved : Bool
  revision : Option String
  mimeType : Option Text
  parentExternalId : Option String
  webUrl : Option String
  hasMetadata : Bool
  deriving DecidableEq

structure ProviderError where
  code : String
  retryable : Bool
  deriving DecidableEq, Repr

/-- A text that counts in an `or`. -/
def truthy (t : Option String) : Option String := t.filter (· != "")

/-! ### What can be indexed -/

def SUPPORTED_EXTENSIONS : List Text :=
  [".pdf", ".docx", ".xlsx", ".xlsm", ".pptx", ".txt", ".md", ".csv", ".png", ".jpg", ".jpeg",
    ".tif", ".tiff", ".bmp", ".webp"].map String.toList

def INGESTIBLE_GOOGLE_EDITORS : List Text :=
  ["document", "presentation", "spreadsheet"].map String.toList

def afterLastDot (t : Text) : Text := (t.reverse.takeWhile (· != '.')).reverse

/-- `_unsupported_reason`.  No extension has a letter that lowering makes of another than its
capital. -/
def unsupportedReason (name : Text) (mimeType : Option Text) : Option Text :=
  let editorOf := mimeType.filter ("application/vnd.google-apps.".toList.isPrefixOf ·)
  match editorOf with
  | some mime =>
    if INGESTIBLE_GOOGLE_EDITORS.contains (afterLastDot mime) then none
    else some ("Google Drive ".toList ++ afterLastDot mime ++ " files cannot be indexed".toList)
  | none =>
    let suffix := if name.contains '.' then '.' :: (afterLastDot name).map Char.toLower else []
    if SUPPORTED_EXTENSIONS.contains suffix then none
    else some ("Unsupported file type (".toList ++
      (if suffix.isEmpty then "no extension".toList else suffix) ++ ")".toList)

def isFile (effectiveMime : Option Text) : Bool :=
  effectiveMime.any fun mime => !mime.isEmpty && !".folder".toList.isSuffixOf mime

inductive System
  | sharepoint | onedrive | googleDrive
  deriving DecidableEq, Repr

def System.fullWalkIsAuthoritative : System → Bool
  | .sharepoint | .onedrive => true
  | .googleDrive => false

/-- A selected scope, with the drive and the folder of its configuration: the drive may be left out
or `None`. -/
structure SourceScope where
  externalScopeId : String
  driveId : Option (Option String)
  folderId : Option String
  deriving DecidableEq

/-! ### `MicrosoftGraphAdapter.incremental_changes` -/

/-- An item of a delta page; `hasFile` and `hasParent` say whether it has the facets. -/
structure GraphItem where
  id : String
  name : Option Text
  deleted : Bool
  hasFile : Bool
  mimeType : Option Text
  hasParent : Bool
  parentId : Option String
  eTag : Option String
  cTag : Option String
  webUrl : Option String
  deriving DecidableEq

/-- A delta page: its items, `@odata.nextLink` and `@odata.deltaLink`. -/
structure GraphPage where
  value : List GraphItem
  nextLink : Option String
  deltaLink : Option String

/-- `drive_id`. -/
def graphDriveId (scope : SourceScope) : Option String :=
  scope.driveId.getD (some scope.externalScopeId)

def graphDeltaUrl (scope : SourceScope) : String :=
  "https://graph.microsoft.com/v1.0/drives/" ++ (graphDriveId scope).getD "None" ++ "/" ++
    ((truthy scope.folderId).elim "root" fun folder => "items/" ++ folder) ++
    "/delta?$select=id,name,file,folder,parentReference,eTag,cTag,webUrl,deleted," ++
    "lastModifiedDateTime"

def graphChange (driveId : Option String) (item : GraphItem) : NormalizedChange where
  externalId := item.id
  corpusId := driveId
  name := item.name.getD item.id.toList
  state := if item.deleted then .deleted else .active
  contentChanged := item.hasFile
  permissionsChanged := false
  moved := item.hasParent
  revision := (truthy item.eTag).or item.cTag
  mimeType := item.mimeType
  parentExternalId := item.parentId
  webUrl := item.webUrl
  hasMetadata := true

def graphFeed (get : String → Except ProviderError GraphPage) (url : String) :
    Except ProviderError (Page GraphItem String String) :=
  (get url).map fun page => ⟨page.value, truthy page.nextLink, page.deltaLink⟩

def graphIncrementalChanges (get : String → Except ProviderError GraphPage) (scope : SourceScope)
    (fuel : Nat) (cursor : Option String) :
    Option (Except ProviderError (List NormalizedChange × Option String)) :=
  follow (graphFeed get) (fun item => [graphChange (graphDriveId scope) item]) fuel
    ((truthy cursor).getD (graphDeltaUrl scope)) [] none

/-! ### `GoogleDriveAdapter.incremental_changes` -/

/-- A `file` of a change. -/
structure DriveFile where
  name : Option Text
  mimeType : Option Text
  parents : List String
  webViewLink : Option String
  version : Option String
  md5Checksum : Option String
  trashed : Bool
  modifiedTime : Option String
  deriving DecidableEq

structure DriveEntry where
  fileId : String
  removed : Bool
  file : Option DriveFile
  deriving DecidableEq

structure DrivePage where
  changes : List DriveEntry
  nextPageToken : Option String
  newStartPageToken : Option String

/-- What the adapter asks Drive for.  A file whose parents cannot be read has none. -/
structure DriveApi where
  startPageToken : Except ProviderError String
  changes : String → Except ProviderError DrivePage
  parentsOf : String → List String

/-- `entry.get("file") or {}`. -/
def noFile : DriveFile where
  name := none
  mimeType := none
  parents := []
  webViewLink := none
  version := none
  md5Checksum := none
  trashed := false
  modifiedTime := none

/-- `_within_folder`, with the depth that is left. -/
def withinFolder (parentsOf : String → List String) (folderId : String) :
    Nat → List String → Bool
  | 0, _ => false
  | depth + 1, parents =>
    if parents.isEmpty then false
    else if parents.contains folderId then true
    else parents.any fun parent => withinFolder parentsOf folderId depth (parentsOf parent)

/-- The change of an entry; an entry outside the folder of the scope is passed over, a removal is
not. -/
def driveChange (api : DriveApi) (scope : SourceScope) (entry : DriveEntry) :
    Option NormalizedChange :=
  let file := entry.file.getD noFile
  let removed := entry.removed || file.trashed
  let outside := (truthy scope.folderId).any fun folder =>
    !removed && !withinFolder api.parentsOf folder 21 file.parents
  if outside then none
  else some
    { externalId := entry.fileId
      corpusId := scope.driveId.getD (some "user")
      name := file.name.getD entry.fileId.toList
      state := if removed then .deleted else .active
      contentChanged := (truthy file.md5Checksum).isSome || (truthy file.version).isSome
      permissionsChanged := false
      moved := !file.parents.isEmpty
      revision := some (((truthy file.version).or (truthy file.modifiedTime)).getD "unknown")
      mimeType := file.mimeType
      parentExternalId := file.parents.head?
      webUrl := file.webViewLink
      hasMetadata := entry.file.isSome }

/-- A page as the loop reads it: the new start token counts on the last page. -/
def driveFeed (api : DriveApi) (token : String) :
    Except ProviderError (Page DriveEntry String String) :=
  (api.changes token).map fun page =>
    match truthy page.nextPageToken with
    | some next => ⟨page.changes, some next, none⟩
    | none => ⟨page.changes, none, page.newStartPageToken⟩

/-- The loop over `changes.list`, from a token. -/
def driveChangesFrom (api : DriveApi) (scope : SourceScope) (fuel : Nat) (token : String) :
    Option (Except ProviderError (List NormalizedChange × Option String)) :=
  if token = "" then some (.ok ([], none))
  else follow (driveFeed api) (fun entry => (driveChange api scope entry).toList) fuel token [] none

/-- `GoogleDriveAdapter.incremental_changes`: without a cursor, from the start token on. -/
def driveIncrementalChanges (api : DriveApi) (scope : SourceScope) (fuel : Nat)
    (cursor : Option String) :
    Option (Except ProviderError (List NormalizedChange × Option String)) :=
  match truthy cursor with
  | some token => driveChangesFrom api scope fuel token
  | none =>
    match api.startPageToken with
    | .error e => some (.error e)
    | .ok token => driveChangesFrom api scope fuel token

end QnscKb.Sync
