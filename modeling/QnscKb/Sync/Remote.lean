import QnscKb.Sync.Cursors
import QnscKb.Sync.Folders

/-!
# Sync — Remote

The walks of a scope against the history of its source: what a completed `incremental_changes` of
each adapter returns.  Without a token, Microsoft Graph's delta lists the files that are there now;
Drive's start token is for the changes from now on.
-/

namespace QnscKb.Sync.Remote
open Cursor ChangeLog Folders

/-! ### Libraries -/

/-- A file or folder of a library. -/
structure GraphFile where
  name : Option Text
  hasFile : Bool
  mimeType : Option Text
  hasParent : Bool
  parentId : Option String
  eTag : Option String
  cTag : Option String
  webUrl : Option String
  deriving DecidableEq

def GraphFile.item (file : GraphFile) (id : String) : GraphItem where
  id := id
  name := file.name
  deleted := false
  hasFile := file.hasFile
  mimeType := file.mimeType
  hasParent := file.hasParent
  parentId := file.parentId
  eTag := file.eTag
  cTag := file.cTag
  webUrl := file.webUrl

def goneItem (id : String) : GraphItem where
  id := id
  name := none
  deleted := true
  hasFile := false
  mimeType := none
  hasParent := false
  parentId := none
  eTag := none
  cTag := none
  webUrl := none

def graphEntry (log : Log String GraphFile) (id : String) : GraphItem :=
  (latest log id).elim (goneItem id) (·.item id)

/-- Microsoft Graph at a point of the history of a scope, with the delta link of each point.
Without one, the delta lists what is there. -/
structure GraphAt (token : Nat → String) (scope : SourceScope) (log : Log String GraphFile)
    (get : String → Except ProviderError GraphPage) : Prop where
  named : ∀ n, token n ≠ ""
  feed : FeedAt (graphFeed get) token token (graphEntry log) log
  lists : ∀ id file, latest log id = some file →
    ∃ page, Reaches (graphFeed get) (graphDeltaUrl scope) page ∧ file.item id ∈ page.items
  listsOnly : ∀ page, Reaches (graphFeed get) (graphDeltaUrl scope) page →
    ∀ item ∈ page.items, ∃ id file, latest log id = some file ∧ item = file.item id
  listEnds : ∀ page, Reaches (graphFeed get) (graphDeltaUrl scope) page → page.next = none →
    page.mark = some (token log.length)

variable {token : Nat → String} {scope : SourceScope} {fuel : Nat} {next : Option String}
  {changes : List NormalizedChange}

section Graph

variable {log recent old : Log String GraphFile} {get : String → Except ProviderError GraphPage}

theorem graph_since (hg : GraphAt token scope log get) (hlog : log = recent ++ old)
    (hw : graphIncrementalChanges get scope fuel (some (token old.length)) =
      some (.ok (changes, next))) :
    next = some (token log.length) ∧ ∀ c, c ∈ changes ↔
      ∃ id ∈ changed recent, graphChange (graphDriveId scope) (graphEntry log id) = c := by
  rw [graphIncrementalChanges, truthy_some (hg.named _)] at hw
  obtain ⟨hnext, hchanges⟩ := hg.feed.follow_iff hlog hw
  refine ⟨hnext, fun c => (hchanges c).trans ?_⟩
  simp only [List.mem_singleton, eq_comm]

theorem graph_whole (hg : GraphAt token scope log get)
    (hw : graphIncrementalChanges get scope fuel none = some (.ok (changes, next))) :
    next = some (token log.length) ∧ ∀ c, c ∈ changes ↔
      ∃ id, (latest log id).isSome = true ∧
        graphChange (graphDriveId scope) (graphEntry log id) = c := by
  have hfrom : follow (graphFeed get) (fun item => [graphChange (graphDriveId scope) item]) fuel
      (graphDeltaUrl scope) [] none = some (.ok (changes, next)) := hw
  refine ⟨follow_mark hg.listEnds hfrom, fun c => ⟨fun hc => ?_, ?_⟩⟩
  · rcases mem_follow hfrom hc with hnil | ⟨page, r, item, hitem, hemit⟩
    · cases hnil
    · obtain ⟨id, file, hfile, rfl⟩ := hg.listsOnly page r item hitem
      refine ⟨id, Option.isSome_of_mem hfile, ?_⟩
      rw [List.mem_singleton.mp hemit, graphEntry, hfile]
      rfl
  · rintro ⟨id, hthere, rfl⟩
    obtain ⟨file, hfile⟩ := Option.isSome_iff_exists.mp hthere
    obtain ⟨page, r, hitem⟩ := hg.lists id file hfile
    have hentry : graphEntry log id = file.item id := by rw [graphEntry, hfile]; rfl
    rw [hentry]
    exact follow_collects hfrom r hitem _ (List.mem_singleton_self _)

end Graph

/-! ### Sources -/

abbrev FileOf : System → Type
  | .sharepoint => GraphFile
  | .onedrive => GraphFile
  | .googleDrive => DriveFile

/-- The history of a scope. -/
abbrev SourceLog (system : System) := Log String (FileOf system)

def reportOf (scope : SourceScope) : (system : System) → SourceLog system → String →
    Option NormalizedChange
  | .sharepoint, log, id => some (graphChange (graphDriveId scope) (graphEntry log id))
  | .onedrive, log, id => some (graphChange (graphDriveId scope) (graphEntry log id))
  | .googleDrive, log, id => driveChange (driveOf (fun _ => "") log) scope (feedEntry log id)

def GraphCompletes (token : Nat → String) (scope : SourceScope) (log : Log String GraphFile)
    (cursor : Option String) (changes : List NormalizedChange) (next : Option String) : Prop :=
  ∃ get fuel, GraphAt token scope log get ∧
    graphIncrementalChanges get scope fuel cursor = some (.ok (changes, next))

/-- A walk that completes, asked with a cursor, at a point of the history. -/
def Completes (token : Nat → String) (scope : SourceScope) : (system : System) →
    SourceLog system → Option String → List NormalizedChange → Option String → Prop
  | .sharepoint, log, cursor, changes, next => GraphCompletes token scope log cursor changes next
  | .onedrive, log, cursor, changes, next => GraphCompletes token scope log cursor changes next
  | .googleDrive, log, cursor, changes, next =>
    ∃ api fuel, DriveAt token log api ∧
      driveWalkMemo api scope fuel cursor = some (.ok (changes, next))

variable {system : System} {log recent old : SourceLog system} {id : String} {c : NormalizedChange}

theorem externalId_of_reportOf (h : reportOf scope system log id = some c) : c.externalId = id := by
  have graph : ∀ (log : Log String GraphFile),
      some (graphChange (graphDriveId scope) (graphEntry log id)) = some c → c.externalId = id := by
    intro log hc
    cases hc
    unfold graphEntry
    cases latest log id <;> rfl
  cases system with
  | sharepoint => exact graph log h
  | onedrive => exact graph log h
  | googleDrive => exact externalId_of_driveChange h

theorem driveChange_at {h : History} {api : DriveApi} (hd : DriveAt token h api)
    (entry : DriveEntry) : driveChange api scope entry =
      driveChange (driveOf (fun _ => "") h) scope entry := by
  rw [driveChange_eq, show api.parentsOf = parentsIn h from funext hd.parents]
  rfl

/-- **A walk from a token on.** -/
theorem completes_since (hlog : log = recent ++ old)
    (hw : Completes token scope system log (some (token old.length)) changes next) :
    next = some (token log.length) ∧ ∀ c, c ∈ changes ↔
      ∃ id ∈ changed recent, reportOf scope system log id = some c := by
  cases system with
  | sharepoint =>
    obtain ⟨get, fuel, hg, hw⟩ := hw
    simpa only [reportOf, Option.some.injEq] using graph_since hg hlog hw
  | onedrive =>
    obtain ⟨get, fuel, hg, hw⟩ := hw
    simpa only [reportOf, Option.some.injEq] using graph_since hg hlog hw
  | googleDrive =>
    obtain ⟨api, fuel, hd, hw⟩ := hw
    obtain ⟨hnext, hchanges⟩ := walk_spec hd hlog (Or.inl rfl) hw
    refine ⟨hnext, fun c => (hchanges c).trans ?_⟩
    simp only [reportOf, driveChange_at hd]

/-- **A walk that enumerates.** -/
theorem completes_whole (hwhole : system.fullWalkIsAuthoritative = true)
    (hw : Completes token scope system log none changes next) :
    next = some (token log.length) ∧ ∀ c, c ∈ changes ↔
      ∃ id, (latest log id).isSome = true ∧ reportOf scope system log id = some c := by
  cases system with
  | sharepoint =>
    obtain ⟨get, fuel, hg, hw⟩ := hw
    simpa only [reportOf, Option.some.injEq] using graph_whole hg hw
  | onedrive =>
    obtain ⟨get, fuel, hg, hw⟩ := hw
    simpa only [reportOf, Option.some.injEq] using graph_whole hg hw
  | googleDrive => cases hwhole

theorem completes_start (hstart : system.fullWalkIsAuthoritative = false)
    (hw : Completes token scope system log none changes next) :
    next = some (token log.length) ∧ changes = [] := by
  cases system with
  | sharepoint => cases hstart
  | onedrive => cases hstart
  | googleDrive =>
    obtain ⟨api, fuel, hd, hw⟩ := hw
    have hnil : log = [] ++ log := rfl
    obtain ⟨hnext, hchanges⟩ := walk_spec hd hnil (Or.inr ⟨rfl, rfl⟩) hw
    refine ⟨hnext, List.eq_nil_iff_forall_not_mem.mpr fun c hc => ?_⟩
    obtain ⟨id, hid, -⟩ := (hchanges c).mp hc
    cases hid

/-! ### Sources for every history -/

/-- Tokens a provider can give out, one for each point of a history. -/
structure Tokens (scope : SourceScope) where
  point : Nat → String
  named : ∀ n, point n ≠ ""
  injective : Function.Injective point
  apart : ∀ n, point n ≠ graphDeltaUrl scope

def graphOf (token : Nat → String) (scope : SourceScope) (log : Log String GraphFile)
    (url : String) : Except ProviderError GraphPage :=
  if url = graphDeltaUrl scope then
    .ok
      { value := (changed log).dedup.filterMap fun id => (latest log id).map (·.item id)
        nextLink := none
        deltaLink := some (token log.length) }
  else
    match pointOf token log url with
    | none => .error ⟨"404", false⟩
    | some n =>
      .ok
        { value := (changed (log.take (log.length - n))).dedup.map (graphEntry log)
          nextLink := none
          deltaLink := some (token log.length) }

theorem graphOf_at (tokens : Tokens scope) (log : Log String GraphFile) :
    GraphAt tokens.point scope log (graphOf tokens.point scope log) := by
  have hlist : graphFeed (graphOf tokens.point scope log) (graphDeltaUrl scope) =
      .ok ⟨(changed log).dedup.filterMap fun id => (latest log id).map (·.item id), none,
        some (tokens.point log.length)⟩ := by
    rw [graphFeed, graphOf, if_pos rfl]
    rfl
  have honly : ∀ page, Reaches (graphFeed (graphOf tokens.point scope log)) (graphDeltaUrl scope)
      page → page = ⟨(changed log).dedup.filterMap fun id => (latest log id).map (·.item id), none,
        some (tokens.point log.length)⟩ := by
    intro page r
    cases r with
    | here hfound => exact Except.ok.inj (hfound.symm.trans hlist)
    | next hfound hnext _ =>
      rw [hlist] at hfound
      cases hfound
      cases hnext
  refine ⟨tokens.named, FeedAt.of_pages fun n hn => ?_, ?_, ?_, ?_⟩
  · simp only [graphFeed, graphOf, if_neg (tokens.apart n), pointOf_token tokens.injective hn]
    rfl
  · intro id file hfile
    refine ⟨_, .here hlist, List.mem_filterMap.mpr ⟨id, ?_, by rw [hfile]; rfl⟩⟩
    exact List.mem_dedup.mpr (mem_changed_of_latest hfile)
  · intro page r item hitem
    rw [honly page r] at hitem
    obtain ⟨id, -, hid⟩ := List.mem_filterMap.mp hitem
    obtain ⟨file, hfile, rfl⟩ := Option.map_eq_some_iff.mp hid
    exact ⟨id, file, hfile, rfl⟩
  · intro page r _
    rw [honly page r]

theorem follow_one {α β τ κ ε : Type} {get : τ → Except ε (Page α τ κ)} (emit : α → List β)
    {t : τ} {page : Page α τ κ} (h : get t = .ok page) (hlast : page.next = none) :
    ∃ out last, follow get emit 1 t [] none = some (.ok (out, last)) := by
  simp only [follow, h, hlast]
  exact ⟨_, _, rfl⟩

/-- Whatever the history is, a walk from a token completes. -/
theorem completes_of_token (tokens : Tokens scope) (system : System) (log : SourceLog system)
    {n : Nat} (hn : n ≤ log.length) : ∃ changes next,
      Completes tokens.point scope system log (some (tokens.point n)) changes next := by
  have graph : ∀ log : Log String GraphFile, n ≤ log.length → ∃ changes next,
      GraphCompletes tokens.point scope log (some (tokens.point n)) changes next := by
    intro log hn
    have hpage : ∃ page, graphFeed (graphOf tokens.point scope log) (tokens.point n) = .ok page ∧
        page.next = none := by
      simp only [graphFeed, graphOf, if_neg (tokens.apart n), pointOf_token tokens.injective hn]
      exact ⟨_, rfl, rfl⟩
    obtain ⟨page, hget, hlast⟩ := hpage
    obtain ⟨out, last, hfollow⟩ := follow_one
      (fun item => [graphChange (graphDriveId scope) item]) hget hlast
    refine ⟨out, last, _, 1, graphOf_at tokens log, ?_⟩
    rw [graphIncrementalChanges, truthy_some (tokens.named n)]
    exact hfollow
  cases system with
  | sharepoint => exact graph log hn
  | onedrive => exact graph log hn
  | googleDrive =>
    have hpage : ∃ page, driveFeed (driveOf tokens.point log) (tokens.point n) = .ok page ∧
        page.next = none := by
      simp only [driveFeed, driveOf, pointOf_token tokens.injective hn]
      exact ⟨_, rfl, rfl⟩
    obtain ⟨page, hget, hlast⟩ := hpage
    obtain ⟨out, last, hfollow⟩ := follow_one
      (fun entry => (driveChange (driveOf tokens.point log) scope entry).toList) hget hlast
    refine ⟨out, last, _, 1, driveOf_at tokens.named tokens.injective log, ?_⟩
    rw [driveWalkMemo_eq, driveIncrementalChanges, truthy_some (tokens.named n)]
    dsimp only
    rw [driveChangesFrom, if_neg (tokens.named n)]
    exact hfollow

/-- So does one from nothing. -/
theorem completes_of_none (tokens : Tokens scope) (system : System) (log : SourceLog system) :
    ∃ changes next, Completes tokens.point scope system log none changes next := by
  have graph : ∀ log : Log String GraphFile, ∃ changes next,
      GraphCompletes tokens.point scope log none changes next := by
    intro log
    have hpage : ∃ page, graphFeed (graphOf tokens.point scope log) (graphDeltaUrl scope) =
        .ok page ∧ page.next = none := by
      simp only [graphFeed, graphOf]
      exact ⟨_, rfl, rfl⟩
    obtain ⟨page, hget, hlast⟩ := hpage
    obtain ⟨out, last, hfollow⟩ := follow_one
      (fun item => [graphChange (graphDriveId scope) item]) hget hlast
    exact ⟨out, last, _, 1, graphOf_at tokens log, hfollow⟩
  cases system with
  | sharepoint => exact graph log
  | onedrive => exact graph log
  | googleDrive =>
    obtain ⟨changes, next, api, fuel, hd, hw⟩ :=
      completes_of_token tokens .googleDrive log (le_refl log.length)
    refine ⟨changes, next, api, fuel, hd, ?_⟩
    have hempty : truthy none = none := rfl
    rw [← hw, driveWalkMemo, driveWalkMemo, truthy_some (tokens.named _), hempty]
    rw [hd.starts]

end QnscKb.Sync.Remote
