import QnscKb.Sync.Cursors

/-!
# Sync — FullImport

A walk that starts without a stored cursor should leave no file of its scope unreported: it is how a
newly selected scope is imported, and how the corpus is rebuilt after a purge has deleted the
documents and reset the cursors.
-/

namespace QnscKb.Sync
open Cursor Runs

variable {scope : SourceScope} {system : System}

/-- A walk without a stored cursor leaves no supported file of the scope unreported. -/
def ImportedWhole (s : ScopeState) : CursorEvent scope system → Prop
  | .completed service changes => storedCursor s = none →
      ∀ file ∈ service.content, file.supported = true →
        file.externalId ∈ s.reported ∨ file.externalId ∈ reportedFiles changes
  | .quiet => True

def NothingToImport (s : ScopeState) : CursorEvent scope system → Prop
  | .completed service _ => system = .googleDrive → storedCursor s = none →
      ∀ file ∈ service.content, file.supported = true → file.externalId ∈ s.reported
  | .quiet => True

instance (s : ScopeState) : (e : CursorEvent scope system) → Decidable (ImportedWhole s e)
  | .completed service _ => inferInstanceAs (Decidable (_ → ∀ file ∈ service.content, _ → _))
  | .quiet => isTrue trivial

instance (s : ScopeState) : (e : CursorEvent scope system) → Decidable (NothingToImport s e)
  | .completed service _ => inferInstanceAs (Decidable (_ → _ → ∀ file ∈ service.content, _ → _))
  | .quiet => isTrue trivial

theorem truthy_walkCursor {s : ScopeState} (h : storedCursor s = none) :
    truthy (walkCursor system s) = none := by
  unfold walkCursor
  split
  · rfl
  · exact h

/-- A delta without a token reports every file. -/
theorem graph_reports (g : GraphService scope) {fuel : Nat} {cursor next : Option String}
    {changes : List NormalizedChange} (hcursor : truthy cursor = none)
    (h : graphIncrementalChanges g.get scope fuel cursor = some (.ok (changes, next)))
    {file : RemoteFile} (hfile : file ∈ g.content) : file.externalId ∈ reportedFiles changes := by
  rw [graphIncrementalChanges, hcursor, Option.getD_none] at h
  obtain ⟨page, hreach, item, hitem, hid, hpresent⟩ := g.enumerates file hfile
  have hmem := follow_collects h hreach hitem _ (List.mem_singleton_self _)
  refine List.mem_map.mpr ⟨_, List.mem_filter.mpr ⟨hmem, ?_⟩, hid⟩
  simp only [graphChange, hpresent]
  rfl

/-- From Drive's start token nothing is reported. -/
theorem drive_reports_nothing (d : DriveService) {fuel : Nat} {cursor next : Option String}
    {changes : List NormalizedChange} (hcursor : truthy cursor = none)
    (h : driveIncrementalChanges d.api scope fuel cursor = some (.ok (changes, next))) :
    changes = [] := by
  simp only [driveIncrementalChanges, hcursor] at h
  split at h
  · cases h
  · rename_i token hstart
    unfold driveChangesFrom at h
    split at h
    · cases h
      rfl
    · refine List.eq_nil_iff_forall_not_mem.mpr fun change hmem => ?_
      rcases mem_follow h hmem with hnone | ⟨page, hreach, entry, hentry, -⟩
      · cases hnone
      · rw [d.startsNow token hstart page hreach] at hentry
        cases hentry

theorem imported_iff {s t : ScopeState} {e : CursorEvent scope system}
    (hstep : By nextCursor s e t) : ImportedWhole s e ↔ NothingToImport s e := by
  obtain ⟨action, hnext⟩ := hstep
  cases e with
  | quiet => exact Iff.rfl
  | completed service changes =>
    obtain ⟨fuel, next, hwalk⟩ := nextCursor_completed hnext
    have graph : ∀ g : GraphService scope, storedCursor s = none →
        graphIncrementalChanges g.get scope fuel (walkCursor system s) =
          some (.ok (changes, next)) →
        ∀ file ∈ g.content, file.supported = true →
          file.externalId ∈ s.reported ∨ file.externalId ∈ reportedFiles changes :=
      fun g hs hw file hfile _ => Or.inr (graph_reports g (truthy_walkCursor hs) hw hfile)
    cases service with
    | sharepoint g => exact ⟨fun _ h => (nomatch h), fun _ hs => graph g hs hwalk⟩
    | onedrive g => exact ⟨fun _ h => (nomatch h), fun _ hs => graph g hs hwalk⟩
    | googleDrive d =>
      constructor
      · intro h _ hs file hfile hsupported
        have hnothing := drive_reports_nothing d (truthy_walkCursor hs) hwalk
        rcases h hs file hfile hsupported with hold | hnew
        · exact hold
        · rw [hnothing] at hnew
          cases hnew
      · intro h hs file hfile hsupported
        exact Or.inl (h rfl hs file hfile hsupported)

/-- **A scope without a cursor is imported whole**, Drive scopes apart that have something to
import. -/
theorem import_whole_iff {tr : List (ScopeState × CursorEvent scope system)} {s : ScopeState}
    (r : Run CursorInitial (By nextCursor) tr s) :
    Throughout ImportedWhole tr ↔ Throughout NothingToImport tr :=
  r.throughout_iff fun _ _ _ hstep => imported_iff hstep

/-! ### A newly selected Drive scope -/

def handbook : RemoteFile :=
  ⟨"file-1", "handbook.pdf".toList, some "application/pdf".toList⟩

def selectedScope : SourceScope := ⟨"drive-1", some (some "drive-1"), none⟩

def quietDrive : DriveService where
  api :=
    { startPageToken := .ok "42"
      changes := fun _ => .ok ⟨[], none, some "42"⟩
      parentsOf := fun _ => [] }
  content := [handbook]
  startsNow := by
    rintro token - page r
    cases r with
    | here h =>
      cases h
      rfl
    | next h hnext _ =>
      cases h
      cases hnext

def library : GraphService selectedScope where
  get _ := .ok
    { value := [{
        id := "file-1"
        name := some "handbook.pdf".toList
        deleted := false
        hasFile := true
        mimeType := some "application/pdf".toList
        hasParent := true
        parentId := some "root"
        eTag := some "1"
        cTag := none
        webUrl := none }]
      nextLink := none
      deltaLink := some "delta" }
  content := [handbook]
  enumerates := by
    intro file hfile
    obtain rfl := List.mem_singleton.mp hfile
    exact ⟨_, .here rfl, _, List.mem_singleton_self _, rfl, rfl⟩

def newScope : ScopeState := ⟨none, []⟩

theorem initial_newScope : CursorInitial newScope := ⟨rfl, rfl⟩

def libraryWalk : List (CursorAction selectedScope .sharepoint) :=
  [.walk (.sharepoint library) 1 false]

theorem libraryWalk_plays : (play nextCursor [] newScope libraryWalk).isSome = true := by
  decide +kernel

theorem import_whole_iff_libraryWalk :
    Throughout ImportedWhole ((play nextCursor [] newScope libraryWalk).get libraryWalk_plays).1 ↔
      Throughout NothingToImport
        ((play nextCursor [] newScope libraryWalk).get libraryWalk_plays).1 :=
  import_whole_iff (run_play initial_newScope libraryWalk_plays)

def driveWalk : List (CursorAction selectedScope .googleDrive) :=
  [.walk (.googleDrive quietDrive) 1 false]

theorem driveWalk_plays : (play nextCursor [] newScope driveWalk).isSome = true := by
  decide +kernel

/-- The first walk of a Drive scope that holds a file completes without reporting it. -/
theorem drive_scope_stays_empty :
    ¬ ∀ (scope : SourceScope) (system : System)
      (tr : List (ScopeState × CursorEvent scope system)) (s : ScopeState),
      Run CursorInitial (By nextCursor) tr s → Throughout ImportedWhole tr := by
  intro h
  have hwhole := h selectedScope .googleDrive _ _ (run_play initial_newScope driveWalk_plays)
  exact absurd hwhole (by decide +kernel)

end QnscKb.Sync
