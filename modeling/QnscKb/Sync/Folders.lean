import QnscKb.Lib.Ancestry
import QnscKb.Lib.ChangeLog
import QnscKb.Lib.Runs
import QnscKb.Sync.Adapters

/-!
# Sync — Folders

A folder scope of Google Drive over the history of the drive: `GoogleDriveAdapter._within_folder`
and `incremental_changes` (`src/domain/connector_adapters.py`) with the memo of one walk, and the
walks between which files are made, edited, moved, trashed and removed.  Every lookup of an ancestor
succeeds.
-/

namespace QnscKb.Sync.Folders
open Cursor Runs Ancestry ChangeLog

/-! ### A walk with its memo -/

/-- `_parents_of`. -/
def parentsOfMemo (api : DriveApi) (fileId : String) (cache : Memo String (List String)) :
    List String × Memo String (List String) :=
  lookUp api.parentsOf fileId cache

/-- `_within_folder` through the memo, with the depth that is left. -/
def withinFolderMemo (api : DriveApi) (folderId : String) :
    Nat → List String → Memo String (List String) → Bool × Memo String (List String)
  | 0, _, cache => (false, cache)
  | depth + 1, parents, cache =>
    if parents.isEmpty then (false, cache)
    else if parents.contains folderId then (true, cache)
    else anyWith (fun parent cache =>
      let grandparents := parentsOfMemo api parent cache
      withinFolderMemo api folderId depth grandparents.1 grandparents.2) parents cache

variable {api : DriveApi}

theorem withinFolderMemo_eq (folderId : String) (depth : Nat) (parents : List String)
    {cache : Memo String (List String)} (h : cache.Agrees api.parentsOf) :
    (withinFolderMemo api folderId depth parents cache).1 =
        withinFolder api.parentsOf folderId depth parents ∧
      (withinFolderMemo api folderId depth parents cache).2.Agrees api.parentsOf := by
  induction depth generalizing parents cache with
  | zero => exact ⟨rfl, h⟩
  | succ depth ih =>
    rw [withinFolderMemo, withinFolder]
    split
    · exact ⟨rfl, h⟩
    · split
      · exact ⟨rfl, h⟩
      · refine anyWith_eq (fun parent cache hcache => ?_) parents h
        obtain ⟨hparents, hagrees⟩ := lookUp_agrees hcache parent
        dsimp only [parentsOfMemo]
        rw [hparents]
        exact ih (api.parentsOf parent) hagrees

theorem withinFolder_iff {up : String → List String} {folderId : String} {depth : Nat}
    {parents : List String} : withinFolder up folderId depth parents = true ↔
      ∃ k < depth, folderId ∈ generation up parents k := by
  induction depth generalizing parents with
  | zero =>
    constructor
    · intro h
      cases h
    · rintro ⟨k, hk, -⟩
      exact absurd hk (Nat.not_lt_zero k)
  | succ depth ih =>
    have hclimb : (∃ k < depth + 1, folderId ∈ generation up parents k) ↔
        folderId ∈ parents ∨ ∃ p ∈ parents, ∃ k < depth, folderId ∈ generation up (up p) k := by
      constructor
      · rintro ⟨k, hk, hmem⟩
        cases k with
        | zero => exact Or.inl hmem
        | succ k =>
          obtain ⟨p, hp, hmem⟩ := mem_generation_succ.mp hmem
          exact Or.inr ⟨p, hp, k, Nat.lt_of_succ_lt_succ hk, hmem⟩
      · rintro (hmem | ⟨p, hp, k, hk, hmem⟩)
        · exact ⟨0, Nat.succ_pos depth, hmem⟩
        · exact ⟨k + 1, Nat.succ_lt_succ hk, mem_generation_succ.mpr ⟨p, hp, hmem⟩⟩
    rw [withinFolder, hclimb]
    split
    · rename_i hempty
      rw [List.isEmpty_iff.mp hempty]
      simp
    · split
      · rename_i hfound
        exact iff_of_true rfl (Or.inl (List.contains_iff_mem.mp hfound))
      · rename_i hfound
        rw [List.any_eq_true]
        simp only [ih]
        exact (or_iff_right fun hmem => hfound (List.contains_iff_mem.mpr hmem)).symm

/-- **The test of the code**, whatever the parent graph. -/
theorem withinFolderMemo_iff {folderId : String} {depth : Nat} {parents : List String}
    {cache : Memo String (List String)} (h : cache.Agrees api.parentsOf) :
    (withinFolderMemo api folderId depth parents cache).1 = true ↔
      ∃ k < depth, folderId ∈ generation api.parentsOf parents k := by
  rw [(withinFolderMemo_eq folderId depth parents h).1]
  exact withinFolder_iff

/-- The `NormalizedChange` of an entry. -/
def entryChange (scope : SourceScope) (entry : DriveEntry) : NormalizedChange :=
  let file := entry.file.getD noFile
  { externalId := entry.fileId
    corpusId := scope.driveId.getD (some "user")
    name := file.name.getD entry.fileId.toList
    state := if entry.removed || file.trashed then .deleted else .active
    contentChanged := (truthy file.md5Checksum).isSome || (truthy file.version).isSome
    permissionsChanged := false
    moved := !file.parents.isEmpty
    revision := some (((truthy file.version).or (truthy file.modifiedTime)).getD "unknown")
    mimeType := file.mimeType
    parentExternalId := file.parents.head?
    webUrl := file.webViewLink
    hasMetadata := entry.file.isSome }

theorem driveChange_eq (api : DriveApi) (scope : SourceScope) (entry : DriveEntry) :
    driveChange api scope entry =
      if (truthy scope.folderId).any fun folder =>
          !(entry.removed || (entry.file.getD noFile).trashed) &&
            !withinFolder api.parentsOf folder 21 (entry.file.getD noFile).parents
      then none else some (entryChange scope entry) :=
  rfl

/-- The body of the loop over a page's entries. -/
def driveChangeMemo (api : DriveApi) (scope : SourceScope) (entry : DriveEntry)
    (ancestry : Memo String (List String)) :
    List NormalizedChange × Memo String (List String) :=
  let file := entry.file.getD noFile
  let removed := entry.removed || file.trashed
  match truthy scope.folderId with
  | none => ([entryChange scope entry], ancestry)
  | some folder =>
    if removed then ([entryChange scope entry], ancestry)
    else
      let within := withinFolderMemo api folder 21 file.parents ancestry
      (if within.1 then [entryChange scope entry] else [], within.2)

theorem driveChangeMemo_eq {scope : SourceScope} (entry : DriveEntry)
    {ancestry : Memo String (List String)} (h : ancestry.Agrees api.parentsOf) :
    (driveChangeMemo api scope entry ancestry).1 = (driveChange api scope entry).toList ∧
      (driveChangeMemo api scope entry ancestry).2.Agrees api.parentsOf := by
  rw [driveChangeMemo, driveChange_eq]
  cases truthy scope.folderId with
  | none => exact ⟨rfl, h⟩
  | some folder =>
    dsimp only [Option.any_some]
    obtain ⟨hwithin, hagrees⟩ :=
      withinFolderMemo_eq folder 21 (entry.file.getD noFile).parents h
    cases hremoved : entry.removed || (entry.file.getD noFile).trashed with
    | true => exact ⟨rfl, h⟩
    | false =>
      refine ⟨?_, hagrees⟩
      simp only [hwithin, Bool.not_false]
      cases withinFolder api.parentsOf folder 21 (entry.file.getD noFile).parents with
      | true => rfl
      | false => rfl

/-- The pages of `changes.list`, with the memo they share. -/
def driveLoop (api : DriveApi) (scope : SourceScope) :
    Nat → String → List NormalizedChange → Memo String (List String) →
      Option (Except ProviderError (List NormalizedChange × Option String))
  | 0, _, _, _ => none
  | fuel + 1, pageToken, changes, ancestry =>
    match api.changes pageToken with
    | .error e => some (.error e)
    | .ok page =>
      let read := collectWith (driveChangeMemo api scope) page.changes ancestry
      match truthy page.nextPageToken with
      | some next => driveLoop api scope fuel next (changes ++ read.1) read.2
      | none => some (.ok (changes ++ read.1, page.newStartPageToken))

/-- `incremental_changes`, with its memo. -/
def driveWalkMemo (api : DriveApi) (scope : SourceScope) (fuel : Nat) (cursor : Option String) :
    Option (Except ProviderError (List NormalizedChange × Option String)) :=
  let walkFrom (token : String) :=
    if token = "" then some (.ok ([], none)) else driveLoop api scope fuel token [] []
  match truthy cursor with
  | some token => walkFrom token
  | none =>
    match api.startPageToken with
    | .error e => some (.error e)
    | .ok token => walkFrom token

theorem driveLoop_eq {scope : SourceScope} (fuel : Nat) (pageToken : String)
    (changes : List NormalizedChange) {ancestry : Memo String (List String)}
    (h : ancestry.Agrees api.parentsOf) :
    driveLoop api scope fuel pageToken changes ancestry =
      follow (driveFeed api) (fun entry => (driveChange api scope entry).toList) fuel pageToken
        changes none := by
  induction fuel generalizing pageToken changes ancestry with
  | zero => rfl
  | succ fuel ih =>
    rw [driveLoop, follow, driveFeed]
    cases api.changes pageToken with
    | error e => rfl
    | ok page =>
      obtain ⟨hread, hagrees⟩ :=
        collectWith_eq (fun entry _ => driveChangeMemo_eq entry) page.changes h
      dsimp only [Except.map]
      cases truthy page.nextPageToken with
      | none =>
        rw [hread]
        cases page.newStartPageToken <;> rfl
      | some next =>
        dsimp only
        rw [ih next _ hagrees, hread]
        rfl

/-- **The memo changes nothing.** -/
theorem driveWalkMemo_eq (api : DriveApi) (scope : SourceScope) (fuel : Nat)
    (cursor : Option String) :
    driveWalkMemo api scope fuel cursor = driveIncrementalChanges api scope fuel cursor := by
  have hfrom : ∀ token,
      (if token = "" then some (.ok ([], none)) else driveLoop api scope fuel token [] []) =
        driveChangesFrom api scope fuel token := by
    intro token
    rw [driveChangesFrom, driveLoop_eq fuel token [] Memo.agrees_nil]
  unfold driveWalkMemo driveIncrementalChanges
  cases truthy cursor with
  | some token => exact hfrom token
  | none =>
    cases api.startPageToken with
    | error e => rfl
    | ok token => exact hfrom token

/-! ### The history of a drive -/

/-- What happened to the files of a drive. -/
abbrev History := Log String DriveFile

def feedEntry (h : History) (id : String) : DriveEntry := ⟨id, (latest h id).isNone, latest h id⟩

def parentsIn (h : History) (id : String) : List String := (latest h id).elim [] (·.parents)

/-- The file is there, and not in the bin. -/
def Live (h : History) (id : String) (file : DriveFile) : Prop :=
  latest h id = some file ∧ file.trashed = false

/-- The file lies in the subtree of the folder. -/
def Inside (h : History) (folder : String) (file : DriveFile) : Prop :=
  Above (parentsIn h) folder file.parents

/-- The file lies at most so deep in it as the code looks. -/
def Near (h : History) (folder : String) (file : DriveFile) : Prop :=
  ∃ k < 21, folder ∈ generation (parentsIn h) file.parents k

theorem Near.inside {h : History} {folder : String} {file : DriveFile} (hn : Near h folder file) :
    Inside h folder file := by
  obtain ⟨k, -, hk⟩ := hn
  exact exists_generation_iff.mp ⟨k, hk⟩

/-- Drive at a point of its history, with the page token of each point. -/
structure DriveAt (token : Nat → String) (h : History) (api : DriveApi) : Prop where
  named : ∀ n, token n ≠ ""
  starts : api.startPageToken = .ok (token h.length)
  parents : ∀ id, api.parentsOf id = parentsIn h id
  feed : FeedAt (driveFeed api) token token (feedEntry h) h

variable {token : Nat → String} {h recent old : History} {api : DriveApi} {scope : SourceScope}
  {folder id : String} {file : DriveFile} {fuel : Nat} {cursor next : Option String}
  {changes : List NormalizedChange} {c : NormalizedChange}

theorem truthy_some {t : String} (h : t ≠ "") : truthy (some t) = some t := by
  simp [truthy, Option.filter, h]

/-- **A walk** returns what the changed files give, and the token of now. -/
theorem walk_spec (hd : DriveAt token h api) (hh : h = recent ++ old)
    (hcursor : cursor = some (token old.length) ∨ cursor = none ∧ recent = [])
    (hw : driveWalkMemo api scope fuel cursor = some (.ok (changes, next))) :
    next = some (token h.length) ∧ ∀ c, c ∈ changes ↔
      ∃ id ∈ changed recent, driveChange api scope (feedEntry h id) = some c := by
  have hfrom : driveChangesFrom api scope fuel (token old.length) = some (.ok (changes, next)) := by
    rw [driveWalkMemo_eq, driveIncrementalChanges] at hw
    rcases hcursor with rfl | ⟨rfl, rfl⟩
    · rw [truthy_some (hd.named _)] at hw
      exact hw
    · rw [List.nil_append] at hh
      rw [hd.starts, hh] at hw
      exact hw
  rw [driveChangesFrom, if_neg (hd.named _)] at hfrom
  obtain ⟨hnext, hchanges⟩ := hd.feed.follow_iff hh hfrom
  refine ⟨hnext, fun c => (hchanges c).trans ?_⟩
  simp only [Option.mem_toList]

theorem driveChange_gone (hgone : ∀ file, ¬ Live h id file) :
    ∃ c, driveChange api scope (feedEntry h id) = some c ∧ c.externalId = id ∧
      c.state = .deleted := by
  have hremoved : ((feedEntry h id).removed ||
      ((feedEntry h id).file.getD noFile).trashed) = true := by
    dsimp only [feedEntry]
    cases hl : latest h id with
    | none => rfl
    | some file =>
      cases htrashed : file.trashed with
      | true => exact htrashed
      | false => exact absurd ⟨hl, htrashed⟩ (hgone file)
  refine ⟨entryChange scope (feedEntry h id), ?_, rfl, if_pos hremoved⟩
  rw [driveChange_eq, hremoved]
  cases truthy scope.folderId <;> rfl

theorem driveChange_live (hd : DriveAt token h api) (hfolder : truthy scope.folderId = some folder)
    (hlive : Live h id file) : driveChange api scope (feedEntry h id) = some c ↔
      Near h folder file ∧ c = entryChange scope (feedEntry h id) := by
  obtain ⟨hl, htrashed⟩ := hlive
  have hremoved : ((feedEntry h id).removed ||
      ((feedEntry h id).file.getD noFile).trashed) = false := by
    simp [feedEntry, hl, htrashed]
  have hfile : (feedEntry h id).file.getD noFile = file := by simp [feedEntry, hl]
  have hnear : withinFolder api.parentsOf folder 21 file.parents = true ↔ Near h folder file := by
    rw [withinFolder_iff, show api.parentsOf = parentsIn h from funext hd.parents]
    rfl
  have hchange : driveChange api scope (feedEntry h id) =
      if withinFolder api.parentsOf folder 21 file.parents then
        some (entryChange scope (feedEntry h id)) else none := by
    rw [driveChange_eq, hremoved, hfile, hfolder, Option.any_some]
    cases withinFolder api.parentsOf folder 21 file.parents <;> rfl
  rw [hchange, ← hnear]
  constructor
  · intro heq
    split at heq
    · rename_i hw
      exact ⟨hw, (Option.some.inj heq).symm⟩
    · cases heq
  · rintro ⟨hw, rfl⟩
    exact if_pos hw

theorem entryChange_active (hlive : Live h id file) :
    (entryChange scope (feedEntry h id)).state = .active := by
  obtain ⟨hl, htrashed⟩ := hlive
  simp [entryChange, feedEntry, hl, htrashed]

/-! ### A drive for every history -/

/-- Drive with a history, every feed on one page. -/
def driveOf (token : Nat → String) (h : History) : DriveApi where
  startPageToken := .ok (token h.length)
  changes t :=
    match pointOf token h t with
    | none => .error ⟨"404", false⟩
    | some n =>
      .ok
        { changes := (changed (h.take (h.length - n))).dedup.map (feedEntry h)
          nextPageToken := none
          newStartPageToken := some (token h.length) }
  parentsOf := parentsIn h

theorem driveOf_at (hnamed : ∀ n, token n ≠ "") (hinj : Function.Injective token) (h : History) :
    DriveAt token h (driveOf token h) where
  named := hnamed
  starts := rfl
  parents _ := rfl
  feed := by
    refine FeedAt.of_pages fun n hn => ?_
    simp only [driveFeed, driveOf, pointOf_token hinj hn]
    rfl

def pointToken (n : Nat) : String := String.ofList (List.replicate (n + 1) 'p')

theorem length_pointToken (n : Nat) : (pointToken n).length = n + 1 := by
  rw [pointToken, String.length_ofList, List.length_replicate]

theorem pointToken_named (n : Nat) : pointToken n ≠ "" := by
  intro hn
  have hlength := length_pointToken n
  rw [hn] at hlength
  cases hlength

theorem pointToken_injective : Function.Injective pointToken := by
  intro m n h
  have hlength := congrArg String.length h
  rw [length_pointToken, length_pointToken] at hlength
  exact Nat.succ.inj hlength

theorem pointDrive_at (h : History) : DriveAt pointToken h (driveOf pointToken h) :=
  driveOf_at pointToken_named pointToken_injective h

/-! ### The walks of a scope -/

/-- A scope with a folder. -/
structure FolderScope extends SourceScope where
  folder : String
  selected : truthy folderId = some folder

/-- The history since the stored cursor and before it, the cursor, and what the scope has reported
of its files, the last report first. -/
structure FolderWatch where
  recent : History
  old : History
  cursor : Option String
  reports : List (String × ChangeState)

def FolderWatch.history (s : FolderWatch) : History := s.recent ++ s.old

def lastReport (reports : List (String × ChangeState)) (id : String) : Option ChangeState :=
  (reports.find? fun r => r.1 == id).map (·.2)

def addReports (reports : List (String × ChangeState)) (changes : List NormalizedChange) :
    List (String × ChangeState) :=
  (changes.map fun change => (change.externalId, change.state)).reverse ++ reports

inductive FolderEvent
  | change (id : String) (file : Option DriveFile)
  | walk (changes : List NormalizedChange)

/-- The drive changes a file, or a walk completes and stores its cursor. -/
inductive FolderStep (token : Nat → String) (scope : FolderScope) :
    FolderWatch → FolderEvent → FolderWatch → Prop where
  | change (s : FolderWatch) (id : String) (file : Option DriveFile) :
      FolderStep token scope s (.change id file) { s with recent := (id, file) :: s.recent }
  | walk {s : FolderWatch} {api : DriveApi} {fuel : Nat} {changes : List NormalizedChange}
      {next : Option String} (hd : DriveAt token s.history api)
      (hw : driveWalkMemo api scope.toSourceScope fuel s.cursor = some (.ok (changes, next))) :
      FolderStep token scope s (.walk changes)
        ⟨[], s.history, (truthy next).or s.cursor, addReports s.reports changes⟩

def FolderStart (s : FolderWatch) : Prop := s.cursor = none ∧ s.reports = []

/-- The files that changed since the stored cursor; there are none before there is one. -/
def FolderWatch.unread (s : FolderWatch) : List String := s.cursor.elim [] fun _ => changed s.recent

/-- A walk leaves no report of a file active that is gone or outside the folder, and has every file
of the folder that changed since the cursor. -/
def Honoured (folder : String) (s : FolderWatch) : FolderEvent → Prop
  | .change _ _ => True
  | .walk changes =>
    (∀ id, lastReport (addReports s.reports changes) id = some .active →
      ∃ file, Live s.history id file ∧ Inside s.history folder file) ∧
    ∀ id ∈ s.unread, ∀ file, Live s.history id file → Inside s.history folder file →
      ∃ c ∈ changes, c.externalId = id ∧ c.state = .active

/-- No document reported active is in the drive outside the folder, and none of the folder that
changed lies deeper than the code looks. -/
def StaysNear (folder : String) (s : FolderWatch) : FolderEvent → Prop
  | .change _ _ => True
  | .walk _ =>
    (∀ id file, lastReport s.reports id = some .active → Live s.history id file →
      Inside s.history folder file) ∧
    ∀ id ∈ s.unread, ∀ file, Live s.history id file → Inside s.history folder file →
      Near s.history folder file

theorem lastReport_of_not {reports : List (String × ChangeState)}
    (hno : ∀ c ∈ changes, c.externalId ≠ id) :
    lastReport (addReports reports changes) id = lastReport reports id := by
  have hnone : (changes.map fun change => (change.externalId, change.state)).reverse.find?
      (fun r => r.1 == id) = none := by
    refine List.find?_eq_none.mpr fun r hr hid => ?_
    obtain ⟨c, hc, rfl⟩ := List.mem_map.mp (List.mem_reverse.mp hr)
    exact hno c hc (beq_iff_eq.mp hid)
  unfold lastReport addReports
  rw [List.find?_append, hnone, Option.none_or]

theorem lastReport_cases {reports : List (String × ChangeState)} {state : ChangeState}
    (hlast : lastReport (addReports reports changes) id = some state) :
    (∃ c ∈ changes, c.externalId = id ∧ c.state = state) ∨
      (∀ c ∈ changes, c.externalId ≠ id) ∧ lastReport reports id = some state := by
  by_cases hno : ∀ c ∈ changes, c.externalId ≠ id
  · exact Or.inr ⟨hno, lastReport_of_not hno ▸ hlast⟩
  · left
    obtain ⟨r, hr, rfl⟩ := Option.map_eq_some_iff.mp hlast
    have hkey := List.find?_some hr
    rw [addReports, List.find?_append] at hr
    rcases Option.or_eq_some_iff.mp hr with hnew | ⟨hnone, -⟩
    · obtain ⟨c, hc, rfl⟩ :=
        List.mem_map.mp (List.mem_reverse.mp (List.mem_of_find?_eq_some hnew))
      exact ⟨c, hc, beq_iff_eq.mp hkey, rfl⟩
    · refine absurd (fun c hc hid => ?_) hno
      refine List.find?_eq_none.mp hnone (c.externalId, c.state) ?_ (beq_iff_eq.mpr hid)
      exact List.mem_reverse.mpr (List.mem_map_of_mem hc)

/-- What every walk leaves: the token of the history it read, and no active report of a file that
was gone by then. -/
structure UpToDate (token : Nat → String) (s : FolderWatch) : Prop where
  cursor : s.cursor = some (token s.old.length) ∨ s.cursor = none ∧ s.reports = []
  live : ∀ id, lastReport s.reports id = some .active → ∃ file, Live s.old id file

/-- What a walk reports of the files that changed: the gone ones, and those the code finds in the
folder as active. -/
structure Reported (h : History) (unread : List String) (folder : String)
    (changes : List NormalizedChange) : Prop where
  gone : ∀ id ∈ unread, (∀ file, ¬ Live h id file) → ∃ c ∈ changes, c.externalId = id
  near : ∀ id ∈ unread, ∀ file, Live h id file → Near h folder file →
    ∃ c ∈ changes, c.externalId = id ∧ c.state = .active
  isNear : ∀ c ∈ changes, ∀ file, Live h c.externalId file → Near h folder file
  live : ∀ c ∈ changes, c.state = .active → ∃ file, Live h c.externalId file

theorem externalId_of_driveChange {entry : DriveEntry}
    (h : driveChange api scope entry = some c) : c.externalId = entry.fileId := by
  rw [driveChange_eq] at h
  split at h
  · cases h
  · cases h
    rfl

theorem reported_of_changed {unread : List String} (hd : DriveAt token h api)
    (hfolder : truthy scope.folderId = some folder)
    (hchanges : ∀ c, c ∈ changes ↔
      ∃ id ∈ unread, driveChange api scope (feedEntry h id) = some c) :
    Reported h unread folder changes where
  gone := by
    intro id hid hgone
    obtain ⟨c, hc, hkey, -⟩ := driveChange_gone hgone
    exact ⟨c, (hchanges c).mpr ⟨id, hid, hc⟩, hkey⟩
  near := by
    intro id hid file hlive hnear
    have hc := (driveChange_live hd hfolder hlive).mpr ⟨hnear, rfl⟩
    exact ⟨_, (hchanges _).mpr ⟨id, hid, hc⟩, rfl, entryChange_active hlive⟩
  isNear := by
    intro c hc file hlive
    obtain ⟨id, -, hchange⟩ := (hchanges c).mp hc
    rw [externalId_of_driveChange hchange] at hlive
    exact ((driveChange_live hd hfolder hlive).mp hchange).1
  live := by
    intro c hc hactive
    obtain ⟨id, -, hchange⟩ := (hchanges c).mp hc
    have hkey : c.externalId = id := externalId_of_driveChange hchange
    rw [hkey]
    by_contra hgone
    have hdeleted : ∃ c, driveChange api scope (feedEntry h id) = some c ∧ c.externalId = id ∧
        c.state = .deleted := driveChange_gone (not_exists.mp hgone)
    rw [hchange] at hdeleted
    obtain ⟨_, hsame, -, hstate⟩ := hdeleted
    cases hsame
    rw [hactive] at hstate
    cases hstate

variable {s : FolderWatch}

theorem walk_reported (hi : UpToDate token s) (hd : DriveAt token s.history api)
    (hfolder : truthy scope.folderId = some folder)
    (hw : driveWalkMemo api scope fuel s.cursor = some (.ok (changes, next))) :
    next = some (token s.history.length) ∧ Reported s.history s.unread folder changes := by
  rcases hi.cursor with hcursor | ⟨hcursor, -⟩
  · obtain ⟨hnext, hchanges⟩ := walk_spec hd rfl (Or.inl hcursor) hw
    have hunread : s.unread = changed s.recent := by rw [FolderWatch.unread, hcursor]; rfl
    exact ⟨hnext, hunread ▸ reported_of_changed hd hfolder hchanges⟩
  · have hnil : s.history = [] ++ s.history := rfl
    obtain ⟨hnext, hchanges⟩ := walk_spec hd hnil (Or.inr ⟨hcursor, rfl⟩) hw
    have hunread : s.unread = [] := by rw [FolderWatch.unread, hcursor]; rfl
    exact ⟨hnext, hunread ▸ reported_of_changed hd hfolder hchanges⟩

theorem live_of_silent (hi : UpToDate token s) (hr : Reported s.history s.unread folder changes)
    (hno : ∀ c ∈ changes, c.externalId ≠ id) (hlast : lastReport s.reports id = some .active) :
    ∃ file, Live s.history id file := by
  rcases hi.cursor with hcursor | ⟨-, hreports⟩
  · by_cases hid : id ∈ changed s.recent
    · by_contra hgone
      have hunread : s.unread = changed s.recent := by rw [FolderWatch.unread, hcursor]; rfl
      obtain ⟨c, hc, hkey⟩ := hr.gone id (hunread ▸ hid) (not_exists.mp hgone)
      exact hno c hc hkey
    · obtain ⟨file, hl, htrashed⟩ := hi.live id hlast
      exact ⟨file, (latest_append hid).trans hl, htrashed⟩
  · rw [hreports] at hlast
    cases hlast

theorem UpToDate.step {scope : FolderScope} {t : FolderWatch} {e : FolderEvent}
    (hi : UpToDate token s) (hs : FolderStep token scope s e t) : UpToDate token t := by
  cases hs with
  | change id file => exact ⟨hi.cursor, hi.live⟩
  | walk hd hw =>
    obtain ⟨rfl, hr⟩ := walk_reported hi hd scope.selected hw
    refine ⟨Or.inl ?_, fun id hlast => ?_⟩
    · rw [truthy_some (hd.named _)]
      rfl
    · rcases lastReport_cases hlast with ⟨c, hc, rfl, hactive⟩ | ⟨hno, hbefore⟩
      · exact hr.live c hc hactive
      · exact live_of_silent hi hr hno hbefore

theorem honoured_step {scope : FolderScope} {t : FolderWatch} {e : FolderEvent}
    (hi : UpToDate token s) (hs : FolderStep token scope s e t) :
    Honoured scope.folder s e ↔ StaysNear scope.folder s e := by
  cases hs with
  | change id file => exact Iff.rfl
  | @walk _ _ changes _ hd hw =>
    obtain ⟨-, hr⟩ := walk_reported hi hd scope.selected hw
    constructor
    · rintro ⟨hreports, hfiles⟩
      refine ⟨fun id file hlast hlive => ?_, fun id hid file hlive hin => ?_⟩
      · by_cases hno : ∀ c ∈ changes, c.externalId ≠ id
        · obtain ⟨file', hlive', hin⟩ := hreports id ((lastReport_of_not hno).trans hlast)
          rw [Option.some.inj (hlive.1.symm.trans hlive'.1)]
          exact hin
        · obtain ⟨c, hno⟩ := not_forall.mp hno
          obtain ⟨hc, hkey⟩ := Classical.not_imp.mp hno
          obtain rfl := not_not.mp hkey
          exact (hr.isNear c hc file hlive).inside
      · obtain ⟨c, hc, rfl, -⟩ := hfiles id hid file hlive hin
        exact hr.isNear c hc file hlive
    · rintro ⟨hstays, hnear⟩
      refine ⟨fun id hlast => ?_, fun id hid file hlive hin => ?_⟩
      · rcases lastReport_cases hlast with ⟨c, hc, rfl, hactive⟩ | ⟨hno, hbefore⟩
        · obtain ⟨file, hlive⟩ := hr.live c hc hactive
          exact ⟨file, hlive, (hr.isNear c hc file hlive).inside⟩
        · obtain ⟨file, hlive⟩ := live_of_silent hi hr hno hbefore
          exact ⟨file, hlive, hstays id file hbefore hlive⟩
      · exact hr.near id hid file hlive (hnear id hid file hlive hin)

/-- **A selected folder as files move.**  The walks honour the folder exactly when before each of
them no document reported active lies outside it and the files of it that changed are within the
levels the code climbs; these it finds exactly, on every parent graph. -/
theorem honoured_iff {scope : FolderScope} {tr : List (FolderWatch × FolderEvent)} {s : FolderWatch}
    (r : Run FolderStart (FolderStep token scope) tr s) :
    (Throughout (Honoured scope.folder) tr ↔ Throughout (StaysNear scope.folder) tr) ∧
      ∀ (api : DriveApi) (folderId : String) (parents : List String)
        (cache : Memo String (List String)), cache.Agrees api.parentsOf →
        ((withinFolderMemo api folderId 21 parents cache).1 = true ↔
          ∃ k < 21, folderId ∈ generation api.parentsOf parents k) := by
  refine ⟨?_, fun api folderId parents cache h => withinFolderMemo_iff h⟩
  refine r.throughout_iff_of_invariant (I := UpToDate token) ?_ ?_ ?_
  · rintro s ⟨hcursor, hreports⟩
    refine ⟨Or.inr ⟨hcursor, hreports⟩, fun id hlast => ?_⟩
    rw [hreports] at hlast
    cases hlast
  · intro s e t hi hs
    exact hi.step hs
  · intro s e t hi hs
    exact honoured_step hi hs

/-! ### A document that moves -/

def plansScope : FolderScope where
  externalScopeId := "team:plans"
  driveId := some (some "team")
  folderId := some "plans"
  folder := "plans"
  selected := rfl

def planIn (folder : String) : DriveFile := { noFile with parents := [folder] }

/-- Before the first walk, after it, and with the document made. -/
def planUnread : FolderWatch := ⟨[], [], none, []⟩
def planAwaited : FolderWatch := ⟨[], [], some (pointToken 0), []⟩
def planMade : FolderWatch := { planAwaited with recent := [("plan", some (planIn "plans"))] }

def planChange : NormalizedChange :=
  entryChange plansScope.toSourceScope (feedEntry planMade.history "plan")

def planKnown : FolderWatch := ⟨[], planMade.history, some (pointToken 1), [("plan", .active)]⟩
def planMoved : FolderWatch := { planKnown with recent := [("plan", some (planIn "drafts"))] }

def planTrace : List (FolderWatch × FolderEvent) :=
  [(planMade, .walk [planChange]), (planAwaited, .change "plan" (some (planIn "plans"))),
    (planUnread, .walk [])]

theorem run_planTrace : Run FolderStart (FolderStep pointToken plansScope) planTrace planKnown := by
  have start : Run FolderStart (FolderStep pointToken plansScope) [] planUnread :=
    .start ⟨rfl, rfl⟩
  have hfirst : driveWalkMemo (driveOf pointToken []) plansScope.toSourceScope 1 none =
      some (.ok ([], some (pointToken 0))) := rfl
  have hmade : driveWalkMemo (driveOf pointToken planMade.history) plansScope.toSourceScope 1
      (some (pointToken 0)) = some (.ok ([planChange], some (pointToken 1))) := rfl
  have first := start.next (.walk (pointDrive_at planUnread.history) hfirst)
  have made := first.next (.change planAwaited "plan" (some (planIn "plans")))
  exact made.next (.walk (pointDrive_at planMade.history) hmade)

theorem plan_honoured : Throughout (Honoured "plans") planTrace := by
  refine (honoured_iff run_planTrace).1.mpr fun p hp => ?_
  rcases List.mem_cons.mp hp with rfl | hp
  · constructor
    · intro id file hlast
      cases hlast
    · intro id hid file hlive _
      obtain rfl := List.mem_singleton.mp hid
      obtain rfl := Option.some.inj hlive.1
      exact ⟨0, by decide, List.mem_singleton.mpr rfl⟩
  · rcases List.mem_cons.mp hp with rfl | hp
    · exact trivial
    · obtain rfl := List.mem_singleton.mp hp
      constructor
      · intro id file hlast
        cases hlast
      · intro id hid
        cases hid

/-- The document moves to a folder nobody selected; the next walk passes its entry over. -/
theorem moved_stays_active : ∃ tr s, Run FolderStart (FolderStep pointToken plansScope) tr s ∧
    ¬ Throughout (Honoured "plans") tr := by
  have moved : Run FolderStart (FolderStep pointToken plansScope) _ planMoved :=
    run_planTrace.next (.change planKnown "plan" (some (planIn "drafts")))
  have hpassed : driveWalkMemo (driveOf pointToken planMoved.history) plansScope.toSourceScope 1
      planMoved.cursor = some (.ok ([], some (pointToken 2))) := rfl
  refine ⟨_, _, moved.next (.walk (pointDrive_at planMoved.history) hpassed), fun honoured => ?_⟩
  obtain ⟨file, hlive, parent, hparent, hchain⟩ := honoured.head.1 "plan" rfl
  obtain rfl := Option.some.inj hlive.1
  obtain rfl := List.mem_singleton.mp hparent
  rcases hchain.cases_head with heq | ⟨above, habove, -⟩
  · exact absurd heq (by decide)
  · cases habove

end QnscKb.Sync.Folders
