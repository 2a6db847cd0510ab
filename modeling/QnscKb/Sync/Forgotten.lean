import QnscKb.Sync.Documents
import QnscKb.Sync.Remote

/-!
# Sync — Forgotten

Whole walks of one scope (`sync_cloud_connector`, `src/domain/cloud_sync.py`): the provider is asked
from the stored cursor, each change is processed and may fail, and the cursor moves past them all.
Sources change, reconciliation passes come at their interval, and people decide, at any time.

An item that failed with attempts left should be met again even if the source never changes: it lies
after the stored cursor, or the walk after the next reconciliation pass enumerates it.
-/

namespace QnscKb.Sync.Forgotten
open Cursor ChangeLog Remote Runs

/-! ### Items -/

def MAX_CONSECUTIVE_ITEM_FAILURES : Nat := 25

/-- A walk under way: its cursor, the changes it has not met, its failures in a row, and the items
that failed with attempts left. -/
structure Progress where
  next : Option String
  todo : List NormalizedChange
  consecutiveFailures : Nat
  failed : List NormalizedChange

/-- The attempts a failure of the item records. -/
def attemptsOf (source : SourceState) (change : NormalizedChange) : Nat :=
  (source.document change.key).elim 1 fun d => SourceState.attemptsAfter d change.revision

/-- The walk after one change, `none` where that ends it. -/
def Progress.meet (p : Progress) (source : SourceState) (change : NormalizedChange)
    (todo : List NormalizedChange) (outcome : Outcome) : Option Progress :=
  let others := p.failed.filter fun c => c.externalId != change.externalId
  if change.state = .deleted ∧ source.document change.key = none then
    some { p with todo := todo, failed := others }
  else
    match outcome with
    | .done _ _ => some ⟨p.next, todo, 0, others⟩
    | .early true | .fatal => none
    | .early false | .fails =>
      if MAX_CONSECUTIVE_ITEM_FAILURES ≤ p.consecutiveFailures + 1 then none
      else
        some ⟨p.next, todo, p.consecutiveFailures + 1,
          if attemptsOf source change < MAX_ITEM_ATTEMPTS then change :: others else others⟩

theorem Progress.meet_next {p p' : Progress} {source : SourceState} {change : NormalizedChange}
    {todo : List NormalizedChange} {outcome : Outcome}
    (h : p.meet source change todo outcome = some p') : p'.next = p.next := by
  unfold Progress.meet at h
  split at h
  · cases h
    rfl
  · cases outcome with
    | done contentHash candidates =>
      cases h
      rfl
    | fatal => cases h
    | early fatal =>
      cases fatal with
      | true => cases h
      | false =>
        dsimp only at h
        split at h
        · cases h
        · cases h
          rfl
    | fails =>
      dsimp only at h
      split at h
      · cases h
      · cases h
        rfl

/-! ### Walks -/

def requestReconciliation (row : ScopeState) : ScopeState :=
  { row with cursor := some ⟨(row.cursor.getD .fresh).cursorValue, .reconcile, true⟩ }

/-- `purge_knowledge_base` on the cursor. -/
def resetCursor (row : ScopeState) : ScopeState :=
  ⟨row.cursor.map fun _ => ⟨none, .reconcile, true⟩, []⟩

/-- What happened at the source since the last walk asked and before, the row, the documents, and
the walk under way. -/
structure ScopeSync (system : System) where
  recent : SourceLog system
  old : SourceLog system
  row : ScopeState
  source : SourceState
  progress : Option Progress

variable {system : System}

def ScopeSync.log (s : ScopeSync system) : SourceLog system := s.recent ++ s.old

def ofWalk : SourceAction → Bool
  | .beginWalk _ _ | .item _ _ | .abortWalk | .endWalk => true
  | _ => false

inductive SyncEvent (system : System) where
  | change (id : String) (file : Option (FileOf system))
  | reconcile
  | purge
  | expire
  | ask (changes : List NormalizedChange)
  | item (change : NormalizedChange) (outcome : Outcome)
  | store
  | abort
  | elsewhere (action : SourceAction)

def ScopeSync.proceed (s : ScopeSync system) (source : SourceState) :
    Option Progress → ScopeSync system
  | some p => { s with source := source, progress := some p }
  | none => { s with source := { source with walk := none }, progress := none }

/-- One step.  A walk may end at any time; other scopes of the connector are walked between the
walks of this one. -/
inductive SyncStep (token : Nat → String) (scope : SourceScope) (scopeId : Nat) :
    ScopeSync system → SyncEvent system → ScopeSync system → Prop where
  | change (s : ScopeSync system) (id : String) (file : Option (FileOf system)) :
      SyncStep token scope scopeId s (.change id file) { s with recent := (id, file) :: s.recent }
  | reconcile (s : ScopeSync system) :
      SyncStep token scope scopeId s .reconcile { s with row := requestReconciliation s.row }
  | purge (s : ScopeSync system) :
      SyncStep token scope scopeId s .purge
        { s with
          row := resetCursor s.row
          source := { s.source with documents := [], drafts := [], articles := [] } }
  | expire {s : ScopeSync system} (hidle : s.progress = none) :
      SyncStep token scope scopeId s .expire { s with row := expireCursor s.row }
  | ask {s : ScopeSync system} {changes : List NormalizedChange} {next : Option String}
      {source : SourceState} (hidle : s.progress = none)
      (hw : Completes token scope system s.log (walkCursor system s.row) changes next)
      (hbegin : nextSource s.source (.beginWalk scopeId
        (reconciliationRequested s.row && system.fullWalkIsAuthoritative)) = some source) :
      SyncStep token scope scopeId s (.ask changes)
        ⟨[], s.log, report s.row changes, source, some ⟨next, changes, 0, []⟩⟩
  | item {s : ScopeSync system} {p : Progress} {change : NormalizedChange}
      {todo : List NormalizedChange} {outcome : Outcome} {source : SourceState}
      (hp : s.progress = some p) (htodo : p.todo = change :: todo)
      (hitem : nextSource s.source (.item change outcome) = some source) :
      SyncStep token scope scopeId s (.item change outcome)
        (s.proceed source (p.meet s.source change todo outcome))
  | store {s : ScopeSync system} {p : Progress} {source : SourceState}
      (hp : s.progress = some p) (hdone : p.todo = [])
      (hend : nextSource s.source .endWalk = some source) :
      SyncStep token scope scopeId s .store
        ⟨s.recent, s.old, storeCursor s.row p.next, source, none⟩
  | abort (s : ScopeSync system) :
      SyncStep token scope scopeId s .abort (s.proceed s.source none)
  | elsewhere {s : ScopeSync system} {action : SourceAction} {source : SourceState}
      (hallowed : s.progress = none ∨ ofWalk action = false)
      (hs : nextSource s.source action = some source) :
      SyncStep token scope scopeId s (.elsewhere action) { s with source := source }

def SyncStart (s : ScopeSync system) : Prop :=
  s.row.cursor = none ∧ s.progress = none ∧ s.source = emptySource

/-- Every walk asked with the cursor, the source as it is, reports the item. -/
def ReportedFrom (token : Nat → String) (scope : SourceScope) (log : SourceLog system)
    (cursor : Option String) (item : NormalizedChange) : Prop :=
  ∀ changes next, Completes token scope system log cursor changes next →
    ∃ c ∈ changes, c.externalId = item.externalId

/-- The item lies after the stored cursor, or a reconciliation enumerates it. -/
def MetAgain (token : Nat → String) (scope : SourceScope) (log : SourceLog system)
    (row : ScopeState) (item : NormalizedChange) : Prop :=
  ReportedFrom token scope log (walkCursor system row) item ∨
    ReportedFrom token scope log (walkCursor system (requestReconciliation row)) item

/-- No item that failed with attempts left is forgotten when the cursor is stored. -/
def Remembered (token : Nat → String) (scope : SourceScope) (s : ScopeSync system) :
    SyncEvent system → Prop
  | .store => ∀ p ∈ s.progress, ∀ item ∈ p.failed,
      MetAgain token scope s.log (storeCursor s.row p.next) item
  | _ => True

/-- Each has changed again since the walk asked, and is in the scope, or still in the scope of a
provider that enumerates it. -/
def StillThere (scope : SourceScope) (s : ScopeSync system) : SyncEvent system → Prop
  | .store => ∀ p ∈ s.progress, ∀ item ∈ p.failed,
      (item.externalId ∈ changed s.recent ∧
        (reportOf scope system s.log item.externalId).isSome = true) ∨
      (system.fullWalkIsAuthoritative = true ∧ (latest s.log item.externalId).isSome = true)
  | _ => True

/-! ### What a walk reports -/

section Reports

variable {scope : SourceScope} {log recent old : SourceLog system} {item : NormalizedChange}

theorem reportedFrom_token (tokens : Tokens scope) (hlog : log = recent ++ old) :
    ReportedFrom tokens.point scope log (some (tokens.point old.length)) item ↔
      item.externalId ∈ changed recent ∧
        (reportOf scope system log item.externalId).isSome = true := by
  constructor
  · intro h
    have hn : old.length ≤ log.length := by rw [hlog, List.length_append]; exact Nat.le_add_left _ _
    obtain ⟨changes, next, hw⟩ := completes_of_token tokens system log hn
    obtain ⟨c, hc, hkey⟩ := h changes next hw
    obtain ⟨id, hid, hreport⟩ := ((completes_since hlog hw).2 c).mp hc
    rw [← hkey, externalId_of_reportOf hreport]
    exact ⟨hid, Option.isSome_of_mem hreport⟩
  · rintro ⟨hid, hreport⟩ changes next hw
    obtain ⟨c, hc⟩ := Option.isSome_iff_exists.mp hreport
    exact ⟨c, ((completes_since hlog hw).2 c).mpr ⟨_, hid, hc⟩, externalId_of_reportOf hc⟩

theorem reportedFrom_none (tokens : Tokens scope) (hwhole : system.fullWalkIsAuthoritative = true) :
    ReportedFrom tokens.point scope log none item ↔
      (latest log item.externalId).isSome = true := by
  have hreports : ∀ id, ∃ c, reportOf scope system log id = some c := by
    intro id
    cases system with
    | sharepoint => exact ⟨_, rfl⟩
    | onedrive => exact ⟨_, rfl⟩
    | googleDrive => cases hwhole
  constructor
  · intro h
    obtain ⟨changes, next, hw⟩ := completes_of_none tokens system log
    obtain ⟨c, hc, hkey⟩ := h changes next hw
    obtain ⟨id, hthere, hreport⟩ := ((completes_whole hwhole hw).2 c).mp hc
    rw [← hkey, externalId_of_reportOf hreport]
    exact hthere
  · intro hthere changes next hw
    obtain ⟨c, hc⟩ := hreports item.externalId
    exact ⟨c, ((completes_whole hwhole hw).2 c).mpr ⟨_, hthere, hc⟩, externalId_of_reportOf hc⟩

theorem metAgain_iff (tokens : Tokens scope) (hlog : log = recent ++ old) {row : ScopeState}
    {status : CursorStatus}
    (hrow : row.cursor = some ⟨some (tokens.point old.length), status, false⟩) :
    MetAgain tokens.point scope log row item ↔
      (item.externalId ∈ changed recent ∧
        (reportOf scope system log item.externalId).isSome = true) ∨
      (system.fullWalkIsAuthoritative = true ∧ (latest log item.externalId).isSome = true) := by
  have hnext : walkCursor system row = some (tokens.point old.length) := by
    simp [walkCursor, reconciliationRequested, hrow]
  have hpass : walkCursor system (requestReconciliation row) =
      if system.fullWalkIsAuthoritative then none else some (tokens.point old.length) := by
    simp [walkCursor, reconciliationRequested, requestReconciliation, hrow]
  rw [MetAgain, hnext, hpass, reportedFrom_token tokens hlog]
  cases hwhole : system.fullWalkIsAuthoritative with
  | true =>
    rw [if_pos rfl, reportedFrom_none tokens hwhole]
    simp only [true_and]
  | false =>
    rw [if_neg Bool.false_ne_true, reportedFrom_token tokens hlog, or_self]
    simp only [Bool.false_eq_true, false_and, or_false]

end Reports

/-! ### Runs -/

/-- The row stands at a point of the history or has no cursor, and a walk under way ends at the
point it asked at. -/
structure Placed (token : Nat → String) (s : ScopeSync system) : Prop where
  row : s.row.cursor.bind (·.cursorValue) = none ∨
    ∃ n ≤ s.log.length, s.row.cursor.bind (·.cursorValue) = some (token n)
  progress : ∀ p ∈ s.progress, p.next = some (token s.old.length)

variable {scope : SourceScope} {scopeId : Nat} {s t : ScopeSync system} {e : SyncEvent system}

theorem Placed.next (tokens : Tokens scope) (h : Placed tokens.point s)
    {changes : List NormalizedChange} {next : Option String}
    (hw : Completes tokens.point scope system s.log (walkCursor system s.row) changes next) :
    next = some (tokens.point s.log.length) := by
  have hnone : Completes tokens.point scope system s.log none changes next →
      next = some (tokens.point s.log.length) := by
    intro hw
    cases hwhole : system.fullWalkIsAuthoritative with
    | true => exact (completes_whole hwhole hw).1
    | false => exact (completes_start hwhole hw).1
  unfold walkCursor at hw
  split at hw
  · exact hnone hw
  · rcases h.row with hrow | ⟨n, hn, hrow⟩
    · rw [hrow] at hw
      exact hnone hw
    · rw [hrow] at hw
      have hsplit : s.log = s.log.take (s.log.length - n) ++ s.log.drop (s.log.length - n) :=
        (List.take_append_drop _ _).symm
      have hlength : (s.log.drop (s.log.length - n)).length = n := by
        rw [List.length_drop, Nat.sub_sub_self hn]
      rw [← hlength] at hw
      exact (completes_since hsplit hw).1

theorem Placed.step (tokens : Tokens scope) (h : Placed tokens.point s)
    (hs : SyncStep tokens.point scope scopeId s e t) : Placed tokens.point t := by
  cases hs with
  | change id file =>
    refine ⟨?_, h.progress⟩
    rcases h.row with hrow | ⟨n, hn, hrow⟩
    · exact Or.inl hrow
    · exact Or.inr ⟨n, hn.trans (Nat.le_succ _), hrow⟩
  | reconcile =>
    refine ⟨?_, h.progress⟩
    have hvalue : (requestReconciliation s.row).cursor.bind (·.cursorValue) =
        s.row.cursor.bind (·.cursorValue) := by
      unfold requestReconciliation
      cases s.row.cursor <;> rfl
    have hrow := h.row
    rw [← hvalue] at hrow
    exact hrow
  | purge =>
    refine ⟨Or.inl ?_, h.progress⟩
    unfold resetCursor
    cases s.row.cursor <;> rfl
  | expire hidle => exact ⟨Or.inl rfl, h.progress⟩
  | ask hidle hw hbegin =>
    refine ⟨?_, fun p hp => ?_⟩
    · exact h.row
    · cases hp
      exact h.next tokens hw
  | item hp htodo hitem =>
    unfold ScopeSync.proceed
    split
    · rename_i p' hmeet
      refine ⟨h.row, fun p hp' => ?_⟩
      cases hp'
      rw [Progress.meet_next hmeet]
      exact h.progress _ hp
    · exact ⟨h.row, fun p hp' => by cases hp'⟩
  | @store p source hp hdone hend =>
    refine ⟨Or.inr ⟨s.old.length, ?_, ?_⟩, fun p hp' => by cases hp'⟩
    · exact (Nat.le_add_left _ _).trans (List.length_append).ge
    · dsimp only [storeCursor]
      rw [h.progress p hp, Folders.truthy_some (tokens.named _)]
      rfl
  | abort => exact ⟨h.row, fun p hp' => by cases hp'⟩
  | elsewhere hallowed hs => exact ⟨h.row, h.progress⟩

theorem remembered_step (tokens : Tokens scope) (h : Placed tokens.point s)
    (hs : SyncStep tokens.point scope scopeId s e t) :
    Remembered tokens.point scope s e ↔ StillThere scope s e := by
  cases hs with
  | @store p source hp hdone hend =>
    have hrow : (storeCursor s.row p.next).cursor =
        some ⟨some (tokens.point s.old.length), .ready, false⟩ := by
      dsimp only [storeCursor]
      rw [h.progress p hp, Folders.truthy_some (tokens.named _)]
      rfl
    have hp' : ∀ q ∈ s.progress, q = p := by
      intro q hq
      exact Option.some.inj (hq.symm.trans hp)
    constructor
    · intro hr q hq item hitem
      obtain rfl := hp' q hq
      exact (metAgain_iff tokens rfl hrow).mp (hr q hq item hitem)
    · intro hc q hq item hitem
      obtain rfl := hp' q hq
      exact (metAgain_iff tokens rfl hrow).mpr (hc q hq item hitem)
  | change => exact Iff.rfl
  | reconcile => exact Iff.rfl
  | purge => exact Iff.rfl
  | expire => exact Iff.rfl
  | ask => exact Iff.rfl
  | item => exact Iff.rfl
  | abort => exact Iff.rfl
  | elsewhere => exact Iff.rfl

/-- **No failed item is forgotten**, exactly in the runs in which each that failed with attempts
left is still there when the cursor is stored: changed again, or in the scope of a provider that
enumerates it. -/
theorem remembered_iff (tokens : Tokens scope) {tr : List (ScopeSync system × SyncEvent system)}
    (r : Run SyncStart (SyncStep tokens.point scope scopeId) tr s) :
    Throughout (Remembered tokens.point scope) tr ↔ Throughout (StillThere scope) tr := by
  refine r.throughout_iff_of_invariant (I := Placed tokens.point) ?_ ?_ ?_
  · rintro s ⟨hcursor, hprogress, -⟩
    refine ⟨Or.inl ?_, fun p hp => ?_⟩
    · rw [hcursor]
      rfl
    · rw [hprogress] at hp
      cases hp
  · intro s e t h hs
    exact h.step tokens hs
  · intro s e t h hs
    exact remembered_step tokens h hs

/-! ### An import that fails once -/

theorem walk_of_fails (source : SourceState) (w : Walk) (change : NormalizedChange) :
    (source.processItem w change .fails).walk.isSome = true := by
  unfold SourceState.processItem
  dsimp only
  split
  · rfl
  · unfold SourceState.recordItemFailure
    split
    · rfl
    · rfl

theorem run_failure {token : Nat → String} {tr : List (ScopeSync system × SyncEvent system)}
    {change : NormalizedChange} {next : Option String}
    (r : Run SyncStart (SyncStep token scope scopeId) tr s) (hidle : s.progress = none)
    (hwalk : s.source.walk = none) (hnew : s.source.document change.key = none)
    (hactive : change.state = .active)
    (hw : Completes token scope system s.log (walkCursor system s.row) [change] next) :
    ∃ u t tr', Run SyncStart (SyncStep token scope scopeId) ((u, .store) :: tr') t ∧
      u.recent = [] ∧ u.old = s.log ∧ u.row.cursor = s.row.cursor ∧
      u.progress = some ⟨next, [], 1, [change]⟩ ∧ ∀ p ∈ tr', p.2 = .store → p ∈ tr := by
  obtain ⟨begun, hbegin, hunder, hnone⟩ : ∃ begun, nextSource s.source (.beginWalk scopeId
      (reconciliationRequested s.row && system.fullWalkIsAuthoritative)) = some begun ∧
      begun.walk.isSome = true ∧ begun.document change.key = none := by
    rw [nextSource, hwalk]
    exact ⟨_, rfl, rfl, hnew⟩
  obtain ⟨w, hw'⟩ := Option.isSome_iff_exists.mp hunder
  have hitem : nextSource begun (.item change .fails) =
      some (begun.processItem w change .fails) := by
    rw [nextSource, hw']
    rfl
  obtain ⟨w', hfailed⟩ := Option.isSome_iff_exists.mp (walk_of_fails begun w change)
  generalize begun.processItem w change .fails = after at hitem hfailed
  have hend : nextSource after .endWalk = some (after.endWalk w') := by
    rw [nextSource, hfailed]
    rfl
  have hmeet : Progress.meet ⟨next, [change], 0, []⟩ begun change [] .fails =
      some ⟨next, [], 1, [change]⟩ := by
    have hattempts : attemptsOf begun change = 1 := by
      rw [attemptsOf, hnone]
      rfl
    rw [Progress.meet, hactive]
    simp [hattempts, MAX_CONSECUTIVE_ITEM_FAILURES, MAX_ITEM_ATTEMPTS]
  have asked := r.next (.ask hidle hw hbegin)
  have failed := asked.next (.item rfl rfl hitem)
  rw [hmeet] at failed
  refine ⟨_, _, _, failed.next (.store rfl rfl hend), rfl, rfl, rfl, rfl, fun p hp hstore => ?_⟩
  rcases List.mem_cons.mp hp with rfl | hp
  · cases hstore
  · rcases List.mem_cons.mp hp with rfl | hp
    · cases hstore
    · exact hp

def wholeDrive : SourceScope := ⟨"drive-1", some (some "drive-1"), none⟩

theorem pointToken_apart (n : Nat) : Folders.pointToken n ≠ graphDeltaUrl wholeDrive := by
  intro h
  have hfirst := congrArg (fun t => t.toList.head?) h
  rw [Folders.pointToken, String.toList_ofList, List.replicate_succ, List.head?_cons] at hfirst
  exact absurd hfirst (by decide +kernel)

/-- Tokens of unary numbers. -/
def pointTokens : Tokens wholeDrive where
  point := Folders.pointToken
  named := Folders.pointToken_named
  injective := Folders.pointToken_injective
  apart := pointToken_apart

def untouched (log : SourceLog system) : ScopeSync system :=
  ⟨log, [], ⟨none, []⟩, emptySource, none⟩

def reportItem : GraphFile where
  name := some "report.pdf".toList
  hasFile := true
  mimeType := some "application/pdf".toList
  hasParent := false
  parentId := none
  eTag := some "1"
  cTag := none
  webUrl := none

/-- The one file of a library fails in its first walk; it is enumerated again. -/
theorem library_failure_remembered : ∃ (tr : List (ScopeSync .sharepoint × SyncEvent .sharepoint))
    (s : ScopeSync .sharepoint), Run SyncStart (SyncStep pointTokens.point wholeDrive 0) tr s ∧
      tr.any (fun p => p.1.progress.any (!·.failed.isEmpty)) = true ∧
      Throughout (Remembered pointTokens.point wholeDrive) tr := by
  let log : SourceLog .sharepoint := [("report", some reportItem)]
  have start : Run SyncStart (SyncStep pointTokens.point wholeDrive 0) [] (untouched log) :=
    .start ⟨rfl, rfl, rfl⟩
  have hw : Completes pointTokens.point wholeDrive .sharepoint log none
      [graphChange (some "drive-1") (reportItem.item "report")] (some (Folders.pointToken 1)) := by
    refine ⟨_, 1, graphOf_at pointTokens log, ?_⟩
    have hurl : (truthy none).getD (graphDeltaUrl wholeDrive) = graphDeltaUrl wholeDrive := rfl
    rfl
  obtain ⟨u, t, tr', r, hrecent, hold, -, hprogress, hbefore⟩ :=
    run_failure start rfl rfl rfl rfl hw
  refine ⟨_, _, r, by rw [List.any_cons, hprogress]; rfl, (remembered_iff pointTokens r).mpr ?_⟩
  refine Throughout.cons ?_ fun p hp => ?_
  · intro p hp item hitem
    obtain rfl := Option.some.inj (hp.symm.trans hprogress)
    obtain rfl := List.mem_singleton.mp hitem
    refine Or.inr ⟨rfl, ?_⟩
    rw [ScopeSync.log, hrecent, hold]
    rfl
  · unfold StillThere
    split
    · rename_i heq
      cases hbefore p hp heq
    · trivial

def driveReport : DriveFile := { noFile with name := some "report.pdf".toList }

/-- A new file of a Drive fails in the second walk of its scope; nothing reports it again. -/
theorem drive_failure_forgotten :
    ∃ (tr : List (ScopeSync .googleDrive × SyncEvent .googleDrive)) (s : ScopeSync .googleDrive),
      Run SyncStart (SyncStep pointTokens.point wholeDrive 0) tr s ∧
        ¬ Throughout (Remembered pointTokens.point wholeDrive) tr := by
  let log : SourceLog .googleDrive := [("report", some driveReport)]
  let empty : ScopeSync .googleDrive := untouched []
  have start : Run SyncStart (SyncStep pointTokens.point wholeDrive 0) [] empty :=
    .start ⟨rfl, rfl, rfl⟩
  have hfirst : Completes pointTokens.point wholeDrive .googleDrive [] none []
      (some (Folders.pointToken 0)) := ⟨_, 1, Folders.pointDrive_at [], rfl⟩
  have asked := start.next (.ask rfl hfirst rfl)
  have stored := asked.next (.store rfl rfl rfl)
  have made := stored.next (.change _ "report" (some driveReport))
  have hsecond : Completes pointTokens.point wholeDrive .googleDrive log
      (some (Folders.pointToken 0))
      [Folders.entryChange wholeDrive (Folders.feedEntry log "report")]
      (some (Folders.pointToken 1)) := ⟨_, 1, Folders.pointDrive_at log, rfl⟩
  obtain ⟨u, t, tr', r, hrecent, hold, -, hprogress, -⟩ :=
    run_failure made rfl rfl rfl rfl hsecond
  refine ⟨_, _, r, fun h => ?_⟩
  have hagain := h.head _ hprogress _ (List.mem_singleton_self _)
  have hlog : u.log = log := by rw [ScopeSync.log, hrecent, hold]; rfl
  -- nothing has changed since the stored cursor, before and after a reconciliation pass
  have hnothing : Completes pointTokens.point wholeDrive .googleDrive u.log
      (some (Folders.pointToken 1)) [] (some (Folders.pointToken 1)) := by
    rw [hlog]
    exact ⟨_, 1, Folders.pointDrive_at log, rfl⟩
  rcases hagain with hagain | hagain
  · obtain ⟨c, hc, -⟩ := hagain _ _ hnothing
    cases hc
  · obtain ⟨c, hc, -⟩ := hagain _ _ hnothing
    cases hc

end QnscKb.Sync.Forgotten
