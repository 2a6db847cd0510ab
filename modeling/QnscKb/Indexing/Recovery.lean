import QnscKb.Ask.Markers
import QnscKb.Lib.Runs

/-!
# Indexing — Recovery

The index runs of an article (`index_article` and `set_index_status` of `src/domain/indexing.py`)
beside the passes of `recover_stuck_indexing` (`src/domain/index_recovery.py`).  Runs start at any
time and may be killed at any step.  A status transaction is one step; that of `_index_article` is
open from its read of the article to its end, and a pass leaves out an article whose row it has
locked.

`updated_at` moves only when an `UPDATE` is sent, so a run that starts on a row already `processing`
leaves the row as it was.
-/

namespace QnscKb.Indexing.Recovery

open Ask (Unicode)
open Runs

variable (U : Unicode)

/-! ### The row -/

inductive IndexStatus
  | pending | processing | ready | failed
  deriving DecidableEq, Repr

/-- What of an article's row the runs and passes read and write. -/
structure Row where
  status : IndexStatus
  error : Option Text
  updatedAt : Nat

def INDEX_RECOVERY_MAX_ATTEMPTS : Nat := 2

def INTERRUPTED_PREFIX : Text := "Interrupted while indexing".toList

/-- `FAILED_MESSAGE`, formatted. -/
def failedMessage : Text :=
  "Indexing was interrupted ".toList ++ Ask.decimal (INDEX_RECOVERY_MAX_ATTEMPTS + 1) ++
    (" times (the worker restarted or ran out of memory) and did not " ++
      "complete. Check the worker, then reprocess this article.").toList

def marker (attempt : Nat) : Text :=
  INTERRUPTED_PREFIX ++ (" (".toList ++ ("attempt ".toList ++ (Ask.decimal attempt ++
    (" of ".toList ++ (Ask.decimal INDEX_RECOVERY_MAX_ATTEMPTS ++
      "); queued again automatically.".toList)))))

def interrupted (error : Option Text) : Bool := INTERRUPTED_PREFIX.isPrefixOf (error.getD [])

/-- `attempt (\d+) of` at the head of a text: the digits. -/
def attemptHead (t : Text) : Option Text :=
  let rest := t.drop "attempt ".toList.length
  let digits := rest.takeWhile fun c => (U.digit c).isSome
  if "attempt ".toList.isPrefixOf t ∧ digits ≠ [] ∧
      " of".toList.isPrefixOf (rest.drop digits.length) then some digits
  else none

def attemptSearch : Text → Option Text
  | [] => attemptHead U []
  | c :: t => (attemptHead U (c :: t)).or (attemptSearch t)

def interruptedAttempts (error : Option Text) : Nat :=
  if interrupted error then
    ((attemptSearch U (error.getD [])).bind (Ask.intOf U)).getD 0
  else 0

/-- What a pass does with an article. -/
inductive Verdict
  | requeue (marker : Text)
  | fail (message : Text)

def nextStep (error : Option Text) : Verdict :=
  let attempt := interruptedAttempts U error + 1
  if INDEX_RECOVERY_MAX_ATTEMPTS < attempt then .fail failedMessage else .requeue (marker attempt)

/-- An `UPDATE` of the columns that differ from those loaded, at a time. -/
def Row.flush (row : Row) (loaded new : IndexStatus × Option Text) (now : Nat) : Row where
  status := if new.1 = loaded.1 then row.status else new.1
  error := if new.2 = loaded.2 then row.error else new.2
  updatedAt := if new = loaded then row.updatedAt else now

/-- The columns after `set_index_status`. -/
def Row.marked (row : Row) (status : IndexStatus) (error : Option Text) :
    IndexStatus × Option Text :=
  (status, if status = .processing ∧ interrupted row.error then row.error else error)

def Row.setIndexStatus (row : Row) (status : IndexStatus) (error : Option Text) (now : Nat) : Row :=
  row.flush (row.status, row.error) (row.marked status error) now

/-! ### Runs and passes -/

/-- Where a run is: before `_index_article` has read the article, in it (with the columns loaded,
and whether chunks were written), after it was skipped, or after an exception, with the recordings
left to try. -/
inductive Phase
  | waiting
  | indexing (loaded : IndexStatus × Option Text) (rowLocked : Bool)
  | skipped
  | raised (text : Text) (writes : Nat)

/-- A run of `index_article` that goes on; `stamped` says whether its start wrote the row, and
`event` whether an event handler started it. -/
structure IndexRun where
  began : Nat
  stamped : Bool
  event : Bool
  phase : Phase

def Phase.locks : Phase → Bool
  | .indexing _ rowLocked => rowLocked
  | _ => false

def Phase.inArticleLock : Phase → Bool
  | .indexing _ _ => true
  | _ => false

structure State where
  now : Nat
  live : Bool
  row : Row
  runs : List IndexRun

inductive Action
  | tick (seconds : Nat)
  /-- Other columns are written; the article is published and active afterwards, or not. -/
  | touch (live : Bool)
  | begin (event : Bool)
  | load (i : Nat)
  | insertChunk (i : Nat)
  | raise (i : Nat) (text : Text)
  | finish (i : Nat)
  | record (i : Nat) (persisted : Bool)
  | kill (i : Nat)
  /-- A pass, which comes to the article or not: it is no longer than its batch. -/
  | pass (claimed : Bool)

variable (stuckMinutes : Nat)

/-- The row is selected by a pass. -/
def State.stuck (s : State) : Bool :=
  s.live && decide (s.row.status = .processing) &&
    decide (s.row.updatedAt + 60 * stuckMinutes < s.now) && !s.runs.any (·.phase.locks)

/-- What a pass does to the article. -/
def State.verdict (s : State) (claimed : Bool) : Option Verdict :=
  if claimed && s.stuck stuckMinutes then some (nextStep U s.row.error) else none

def Verdict.row (now : Nat) : Verdict → Row
  | .requeue text => ⟨.processing, some text, now⟩
  | .fail message => ⟨.failed, some message, now⟩

/-- `set_index_status(article_id, "processing")` writes the row. -/
def State.writesStart (s : State) : Bool :=
  decide (s.row.marked .processing none ≠ (s.row.status, s.row.error))

def skipMessage : Text := "Article is not active and published; indexing was skipped".toList

def State.put (s : State) (i : Nat) (run : IndexRun) (phase : Phase) : State :=
  { s with runs := s.runs.set i { run with phase } }

def State.close (s : State) (i : Nat) (row : Row) : State :=
  { s with row, runs := s.runs.eraseIdx i }

def next (s : State) : Action → Option (Unit × State)
  | .tick seconds => some ((), { s with now := s.now + seconds })
  | .touch live => some ((), { s with live, row := { s.row with updatedAt := s.now } })
  | .begin event =>
    some ((), { s with
      row := s.row.setIndexStatus .processing none s.now
      runs := s.runs ++ [⟨s.now, s.writesStart, event, .waiting⟩] })
  | .load i =>
    match s.runs[i]? with
    | some ⟨began, stamped, event, .waiting⟩ =>
      if s.runs.any (·.phase.inArticleLock) then none
      else some ((), s.put i ⟨began, stamped, event, .waiting⟩
        (if s.live then .indexing (s.row.status, s.row.error) false else .skipped))
    | _ => none
  | .insertChunk i =>
    match s.runs[i]? with
    | some ⟨began, stamped, event, .indexing loaded locked⟩ =>
      some ((), s.put i ⟨began, stamped, event, .indexing loaded locked⟩
        (.indexing loaded true))
    | _ => none
  | .raise i text =>
    match s.runs[i]? with
    -- also where it is the skip that cannot be recorded
    | some ⟨began, stamped, event, .waiting⟩ | some ⟨began, stamped, event, .indexing _ _⟩
    | some ⟨began, stamped, event, .skipped⟩ =>
      some ((), s.put i ⟨began, stamped, event, .waiting⟩
        (.raised text (if event then 2 else 1)))
    | _ => none
  | .finish i =>
    match s.runs[i]? with
    | some ⟨_, _, _, .indexing loaded _⟩ =>
      some ((), s.close i (s.row.flush loaded (.ready, none) s.now))
    | _ => none
  | .record i persisted =>
    match s.runs[i]? with
    | some ⟨_, _, _, .skipped⟩ =>
      some ((), s.close i (if persisted then
        s.row.setIndexStatus .pending (some skipMessage) s.now else s.row))
    | some ⟨began, stamped, event, .raised text writes⟩ =>
      -- `index_article` records the first 2,000 characters, an event handler the whole text
      let row := if persisted then s.row.setIndexStatus .failed
        (some (if event && writes == 1 then text else text.take 2000)) s.now else s.row
      if writes ≤ 1 then some ((), s.close i row)
      else some ((), { s with row }.put i ⟨began, stamped, event, .waiting⟩
        (.raised text (writes - 1)))
    | _ => none
  | .kill i => if i < s.runs.length then some ((), s.close i s.row) else none
  | .pass claimed =>
    some ((), match s.verdict U stuckMinutes claimed with
      | some verdict => { s with row := verdict.row s.now }
      | none => s)

/-! ### The count -/

/-- The requeues since a run reached a recorded end, or a pass marked the article failed. -/
def note (s : State) (requeues : Nat) : Action → Nat
  | .finish _ | .record _ true => 0
  | .pass claimed =>
    match s.verdict U stuckMinutes claimed with
    | some (.requeue _) => requeues + 1
    | some (.fail _) => 0
    | none => requeues
  | _ => requeues

section Attempts

variable {U}

theorem attemptSearch_append {before t : Text} (h : 'a' ∉ before) :
    attemptSearch U (before ++ t) = attemptSearch U t := by
  induction before with
  | nil => rfl
  | cons c before ih =>
    obtain ⟨hc, hbefore⟩ := not_or.mp (List.mem_cons.not.mp h)
    have hnone : attemptHead U (c :: (before ++ t)) = none := by
      rw [attemptHead, if_neg]
      rintro ⟨hstarts, -⟩
      exact hc (List.cons_prefix_cons.mp (List.isPrefixOf_iff_prefix.mp hstarts)).1
    rw [List.cons_append, attemptSearch, hnone, Option.none_or, ih hbefore]

theorem attemptSearch_of_head {t digits : Text} (h : attemptHead U t = some digits) :
    attemptSearch U t = some digits := by
  cases t with
  | nil => exact h
  | cons c t => rw [attemptSearch, h, Option.some_or]

theorem attemptHead_decimal (n : Nat) (t : Text) :
    attemptHead U ("attempt ".toList ++ (Ask.decimal n ++ (" of ".toList ++ t))) =
      some (Ask.decimal n) := by
  have hdigit : ∀ c ∈ Ask.decimal n, (U.digit c).isSome = true := fun c hc => by
    rw [U.digit_of_isDigit c (Ask.isDigit_of_mem_decimal hc)]
    rfl
  have hspace : (U.digit ' ').isSome = false := by
    by_contra hsome
    rw [Bool.not_eq_false] at hsome
    exact absurd (U.digit_visible ' ' hsome) (by decide)
  have htake : (Ask.decimal n ++ (" of ".toList ++ t)).takeWhile (fun c => (U.digit c).isSome) =
      Ask.decimal n := by
    rw [List.takeWhile_append_of_pos hdigit]
    show Ask.decimal n ++ (' ' :: _).takeWhile _ = _
    rw [List.takeWhile_cons_of_neg (by simp [hspace]), List.append_nil]
  have hne : Ask.decimal n ≠ [] := by
    exact Nat.toDigits_ne_nil
  rw [attemptHead, List.drop_left, htake, List.drop_left]
  exact if_pos ⟨List.isPrefixOf_iff_prefix.mpr (List.prefix_append _ _), hne, rfl⟩

theorem interruptedAttempts_marker (attempt : Nat) :
    interruptedAttempts U (some (marker attempt)) = attempt := by
  have hprefix : interrupted (some (marker attempt)) = true :=
    List.isPrefixOf_iff_prefix.mpr (List.prefix_append _ _)
  have hsearch : attemptSearch U (marker attempt) = some (Ask.decimal attempt) := by
    rw [marker, attemptSearch_append (by decide), attemptSearch_append (by decide)]
    exact attemptSearch_of_head (attemptHead_decimal attempt _)
  rw [interruptedAttempts, if_pos hprefix, Option.getD_some, hsearch, Option.bind_some,
    Ask.decimal, Ask.intOf_toDigits]
  rfl

end Attempts

/-! ### What a step does -/

/-- Each run goes on from one that was there. -/
def GoOn (runs runs' : List IndexRun) : Prop :=
  ∀ run' ∈ runs', ∃ run ∈ runs, run.began = run'.began ∧ run.stamped = run'.stamped

/-- What the steps do to the row and the runs. -/
inductive Effect (s : State) : Action → State → Prop
  | tick (seconds : Nat) : Effect s (.tick seconds) { s with now := s.now + seconds }
  | touch (live : Bool) :
      Effect s (.touch live) { s with live, row := { s.row with updatedAt := s.now } }
  | begin (event : Bool) : Effect s (.begin event) { s with
      row := s.row.setIndexStatus .processing none s.now
      runs := s.runs ++ [⟨s.now, s.writesStart, event, .waiting⟩] }
  /-- A run goes on or is killed, or its end is not recorded. -/
  | move {a : Action} {runs : List IndexRun} (hruns : GoOn s.runs runs)
      (hnote : ∀ n, note U stuckMinutes s n a = n) (hpass : ∀ claimed, a ≠ .pass claimed) :
      Effect s a { s with runs }
  /-- A run comes to a recorded end. -/
  | done {a : Action} {runs : List IndexRun} {loaded new : IndexStatus × Option Text}
      (hruns : GoOn s.runs runs) (hnote : ∀ n, note U stuckMinutes s n a = 0)
      (hpass : ∀ claimed, a ≠ .pass claimed) :
      Effect s a { s with runs, row := s.row.flush loaded new s.now }
  | pass (claimed : Bool) : Effect s (.pass claimed) (match s.verdict U stuckMinutes claimed with
      | some verdict => { s with row := verdict.row s.now }
      | none => s)

variable {U stuckMinutes} {s t : State} {n : Nat} {a : Action}

theorem goOn_eraseIdx (runs : List IndexRun) (i : Nat) : GoOn runs (runs.eraseIdx i) :=
  fun run hrun => ⟨run, List.mem_of_mem_eraseIdx hrun, rfl, rfl⟩

theorem goOn_set {runs : List IndexRun} {i : Nat} {run run' : IndexRun}
    (hrun : runs[i]? = some run) (hbegan : run.began = run'.began)
    (hstamped : run.stamped = run'.stamped) : GoOn runs (runs.set i run') := by
  intro r hr
  rcases List.mem_or_eq_of_mem_set hr with hr | rfl
  · exact ⟨r, hr, rfl, rfl⟩
  · exact ⟨run, List.mem_of_getElem? hrun, hbegan, hstamped⟩

theorem next_cases (h : next U stuckMinutes s a = some ((), t)) :
    Effect U stuckMinutes s a t := by
  cases a with
  | tick seconds =>
    cases h
    exact .tick seconds
  | touch live =>
    cases h
    exact .touch live
  | begin event =>
    cases h
    exact .begin event
  | load i =>
    simp only [next] at h
    split at h
    · next hrun =>
      split at h
      · cases h
      · cases h
        exact .move (goOn_set hrun rfl rfl) (fun _ => rfl) nofun
    · cases h
  | insertChunk i =>
    simp only [next] at h
    split at h
    · next hrun =>
      cases h
      exact .move (goOn_set hrun rfl rfl) (fun _ => rfl) nofun
    · cases h
  | raise i text =>
    simp only [next] at h
    split at h
    · next hrun =>
      cases h
      exact .move (goOn_set hrun rfl rfl) (fun _ => rfl) nofun
    · next hrun =>
      cases h
      exact .move (goOn_set hrun rfl rfl) (fun _ => rfl) nofun
    · next hrun =>
      cases h
      exact .move (goOn_set hrun rfl rfl) (fun _ => rfl) nofun
    · cases h
  | finish i =>
    simp only [next] at h
    split at h
    · cases h
      exact .done (goOn_eraseIdx _ i) (fun _ => rfl) nofun
    · cases h
  | record i persisted =>
    simp only [next] at h
    split at h
    · cases h
      cases persisted with
      | true => exact .done (goOn_eraseIdx _ i) (fun _ => rfl) nofun
      | false => exact .move (goOn_eraseIdx _ i) (fun _ => rfl) nofun
    · next hrun =>
      split at h
      · cases h
        cases persisted with
        | true => exact .done (goOn_eraseIdx _ i) (fun _ => rfl) nofun
        | false => exact .move (goOn_eraseIdx _ i) (fun _ => rfl) nofun
      · cases h
        cases persisted with
        | true => exact .done (goOn_set hrun rfl rfl) (fun _ => rfl) nofun
        | false => exact .move (goOn_set hrun rfl rfl) (fun _ => rfl) nofun
    · cases h
  | kill i =>
    simp only [next] at h
    split at h
    · cases h
      exact .move (goOn_eraseIdx _ i) (fun _ => rfl) nofun
    · cases h
  | pass claimed =>
    cases h
    exact .pass claimed

/-! ### How often -/

variable (U) in
/-- The requeues are few, and the row counts them while a run is to come to its end. -/
structure Counted (p : State × Nat) : Prop where
  le : p.2 ≤ INDEX_RECOVERY_MAX_ATTEMPTS
  processing : p.1.row.status = .processing → p.2 ≤ interruptedAttempts U p.1.row.error
  ended : p.1.row.status ≠ .processing → p.2 = 0

theorem Counted.zero (s : State) : Counted U (s, 0) :=
  ⟨Nat.zero_le _, fun _ => Nat.zero_le _, fun _ => rfl⟩

theorem interruptedAttempts_of_not {error : Option Text} (h : ¬ interrupted error = true) :
    interruptedAttempts U error = 0 := if_neg h

theorem setIndexStatus_processing (row : Row) (now : Nat) :
    (row.setIndexStatus .processing none now).status = .processing ∧
      (row.setIndexStatus .processing none now).error =
        if interrupted row.error then row.error else none := by
  rw [Row.setIndexStatus, Row.flush, Row.marked]
  dsimp only
  refine ⟨?_, ?_⟩
  · split_ifs with hsame
    · exact hsame.symm
    · rfl
  · by_cases hnote : interrupted row.error = true
    · simp only [hnote, and_self, if_true]
    · simp only [hnote, and_false, Bool.false_eq_true, if_false]
      split_ifs with hsame
      · exact hsame.symm
      · rfl

theorem processing_of_verdict {claimed : Bool} {verdict : Verdict}
    (h : s.verdict U stuckMinutes claimed = some verdict) :
    s.row.status = .processing ∧ s.row.updatedAt + 60 * stuckMinutes < s.now ∧
      verdict = nextStep U s.row.error := by
  rw [State.verdict] at h
  split_ifs at h with hstuck
  simp only [State.stuck, Bool.and_eq_true, decide_eq_true_eq] at hstuck
  exact ⟨hstuck.2.1.1.2, hstuck.2.1.2, (Option.some.inj h).symm⟩

theorem nextStep_requeue {error : Option Text} {text : Text}
    (h : nextStep U error = .requeue text) :
    interruptedAttempts U error < INDEX_RECOVERY_MAX_ATTEMPTS ∧
      text = marker (interruptedAttempts U error + 1) := by
  rw [nextStep] at h
  split_ifs at h with hmany
  exact ⟨Nat.lt_of_succ_le (not_lt.mp hmany), (Verdict.requeue.inj h).symm⟩

/-- The note of the attempts counts at least the requeues since the last recorded end. -/
theorem Counted.step (h : Counted U (s, n)) (heffect : Effect U stuckMinutes s a t) :
    Counted U (t, note U stuckMinutes s n a) := by
  cases heffect with
  | tick | touch => exact ⟨h.le, h.processing, h.ended⟩
  | move _ hnote _ =>
    rw [hnote]
    exact ⟨h.le, h.processing, h.ended⟩
  | done _ hnote _ =>
    rw [hnote]
    exact .zero _
  | begin event =>
    obtain ⟨hstatus, herror⟩ := setIndexStatus_processing s.row s.now
    refine ⟨h.le, fun _ => ?_, fun hended => absurd hstatus hended⟩
    show n ≤ interruptedAttempts U (s.row.setIndexStatus .processing none s.now).error
    rw [herror]
    by_cases hprocessing : s.row.status = .processing
    · have hcount := h.processing hprocessing
      split_ifs with hnote
      · exact hcount
      · rw [interruptedAttempts_of_not hnote] at hcount
        exact hcount.trans (Nat.zero_le _)
    · exact (h.ended hprocessing).trans_le (Nat.zero_le _)
  | pass claimed =>
    rw [note]
    rcases hverdict : s.verdict U stuckMinutes claimed with _ | text | message
    · exact h
    · obtain ⟨hprocessing, -, hstep⟩ := processing_of_verdict hverdict
      obtain ⟨hless, rfl⟩ := nextStep_requeue hstep.symm
      have hcount := h.processing hprocessing
      refine ⟨hcount.trans_lt hless, fun _ => ?_, fun hended => absurd rfl hended⟩
      show n + 1 ≤ interruptedAttempts U (some _)
      rw [interruptedAttempts_marker]
      exact Nat.succ_le_succ hcount
    · exact .zero _

/-! ### Whom a pass overtakes -/

variable (limit : Nat)

variable (stuckMinutes) in
/-- The row was written when a run started or later, or the run started early. -/
structure Stamped (s : State) : Prop where
  past : s.row.updatedAt ≤ s.now
  written : ∀ run ∈ s.runs, run.stamped = true → run.began ≤ s.row.updatedAt
  early : ∀ run ∈ s.runs, run.stamped = false →
    run.began + limit ≤ s.row.updatedAt + 60 * stuckMinutes

variable (stuckMinutes) in
/-- A run starts by writing the row, or is over before the row is stuck again; a pass finds no run
that has not written the row and goes on for longer. -/
def timely (s : State) : Action → Bool
  | .begin _ => s.writesStart || decide (s.now + limit ≤ s.row.updatedAt + 60 * stuckMinutes)
  | .pass _ => s.runs.all fun run => run.stamped || decide (s.now ≤ run.began + limit)
  | _ => true

variable {limit}

theorem Stamped.later (h : Stamped stuckMinutes limit s) (hruns : GoOn s.runs t.runs)
    (hrow : s.row.updatedAt ≤ t.row.updatedAt) (hpast : t.row.updatedAt ≤ t.now) :
    Stamped stuckMinutes limit t := by
  refine ⟨hpast, fun run' hrun' hstamped => ?_, fun run' hrun' hstamped => ?_⟩
  · obtain ⟨run, hrun, hbegan, hsame⟩ := hruns run' hrun'
    exact hbegan ▸ (h.written run hrun (hsame.trans hstamped)).trans hrow
  · obtain ⟨run, hrun, hbegan, hsame⟩ := hruns run' hrun'
    have hearly := h.early run hrun (hsame.trans hstamped)
    omega

theorem goOn_refl (runs : List IndexRun) : GoOn runs runs := fun run hrun => ⟨run, hrun, rfl, rfl⟩

theorem updatedAt_flush {row : Row} {now : Nat} (loaded new : IndexStatus × Option Text)
    (h : row.updatedAt ≤ now) : row.updatedAt ≤ (row.flush loaded new now).updatedAt ∧
      (row.flush loaded new now).updatedAt ≤ now := by
  rw [Row.flush]
  dsimp only
  split_ifs
  · exact ⟨le_rfl, h⟩
  · exact ⟨h, le_rfl⟩

/-- The row is stamped when a run starts or later, or the run started early. -/
theorem Stamped.step (h : Stamped stuckMinutes limit s) (hc : timely stuckMinutes limit s a = true)
    (heffect : Effect U stuckMinutes s a t) : Stamped stuckMinutes limit t := by
  cases heffect with
  | tick seconds => exact h.later (goOn_refl _) le_rfl (h.past.trans (Nat.le_add_right _ _))
  | touch live => exact h.later (goOn_refl _) h.past le_rfl
  | move hruns _ _ => exact h.later hruns le_rfl h.past
  | done hruns _ _ =>
    obtain ⟨hrow, hpast⟩ := updatedAt_flush _ _ h.past
    exact h.later hruns hrow hpast
  | pass claimed =>
    rcases hverdict : s.verdict U stuckMinutes claimed with _ | text | message
    · exact h
    · exact h.later (goOn_refl _) h.past le_rfl
    · exact h.later (goOn_refl _) h.past le_rfl
  | begin event =>
    obtain ⟨hrow, hpast⟩ := updatedAt_flush (s.row.status, s.row.error)
      (s.row.marked .processing none) h.past
    have hold : Stamped stuckMinutes limit
        { s with row := s.row.setIndexStatus .processing none s.now } :=
      h.later (goOn_refl _) hrow hpast
    refine ⟨hpast, List.forall_mem_append.mpr ⟨hold.written, ?_⟩,
      List.forall_mem_append.mpr ⟨hold.early, ?_⟩⟩
    · rw [List.forall_mem_singleton]
      intro hwrites
      refine le_of_eq (if_neg ?_).symm
      exact of_decide_eq_true hwrites
    · rw [List.forall_mem_singleton]
      intro hkept
      rw [timely, show s.writesStart = false from hkept] at hc
      exact (of_decide_eq_true hc).trans (Nat.add_le_add_right hrow _)

/-! ### Whole runs -/

variable (U stuckMinutes) in
/-- A pass queues an article again only where that is one of the attempts it has, and else marks it
failed. -/
def capped (p : State × Nat) : Action → Bool
  | .pass claimed =>
    match p.1.verdict U stuckMinutes claimed with
    | some (.requeue _) => decide (p.2 < INDEX_RECOVERY_MAX_ATTEMPTS)
    | some (.fail _) | none => true
  | _ => true

variable (U stuckMinutes) in
/-- A pass touches an article only where none of its runs that go on began less than
`stuck_minutes` ago. -/
def spared (p : State × Nat) : Action → Bool
  | .pass claimed => (p.1.verdict U stuckMinutes claimed).isNone ||
      p.1.runs.all fun run => decide (run.began + 60 * stuckMinutes ≤ p.1.now)
  | _ => true

variable (U stuckMinutes) in
def Capped (p : State × Nat) (a : Action) : Prop := capped U stuckMinutes p a = true

variable (U stuckMinutes) in
def Spared (p : State × Nat) (a : Action) : Prop := spared U stuckMinutes p a = true

variable (stuckMinutes limit) in
def Timely (p : State × Nat) (a : Action) : Prop := timely stuckMinutes limit p.1 a = true

instance (p : State × Nat) (a : Action) : Decidable (Spared U stuckMinutes p a) :=
  inferInstanceAs (Decidable (_ = true))

instance (p : State × Nat) (a : Action) : Decidable (Timely stuckMinutes limit p a) :=
  inferInstanceAs (Decidable (_ = true))

def Initial (p : State × Nat) : Prop := p.1.runs = [] ∧ p.1.row.updatedAt ≤ p.1.now ∧ p.2 = 0

variable (U stuckMinutes) in
abbrev RecoveryStep : State × Nat → Action → State × Nat → Prop :=
  By (watched (next U stuckMinutes) (note U stuckMinutes))

variable {p : State × Nat}

theorem effect_of_step {q : State × Nat} (h : RecoveryStep U stuckMinutes p a q) :
    Effect U stuckMinutes p.1 a q.1 ∧ q.2 = note U stuckMinutes p.1 p.2 a := by
  obtain ⟨⟨_, hnext⟩, hnote⟩ := by_watched_iff.mp h
  exact ⟨next_cases hnext, hnote⟩

theorem Counted.of_step {q : State × Nat} (h : Counted U p)
    (hstep : RecoveryStep U stuckMinutes p a q) : Counted U q := by
  obtain ⟨heffect, hnote⟩ := effect_of_step hstep
  have hcounted := Counted.step (n := p.2) h heffect
  rw [← hnote] at hcounted
  exact hcounted

theorem Counted.capped (h : Counted U p) (a : Action) : Capped U stuckMinutes p a := by
  cases a with
  | pass claimed =>
    rw [Capped, Recovery.capped]
    rcases hverdict : p.1.verdict U stuckMinutes claimed with _ | text | message
    · rfl
    · obtain ⟨hprocessing, -, hstep⟩ := processing_of_verdict hverdict
      exact decide_eq_true
        ((h.processing hprocessing).trans_lt (nextStep_requeue hstep.symm).1)
    · rfl
  | _ => rfl

theorem Stamped.spared (h : Stamped stuckMinutes limit p.1) {a : Action}
    (hc : Timely stuckMinutes limit p a) : Spared U stuckMinutes p a := by
  cases a with
  | pass claimed =>
    rw [Spared, Recovery.spared]
    rcases hverdict : p.1.verdict U stuckMinutes claimed with _ | verdict
    · rfl
    · obtain ⟨-, hstuck, -⟩ := processing_of_verdict hverdict
      refine List.all_eq_true.mpr fun run hrun => decide_eq_true ?_
      cases hstamped : run.stamped with
      | true =>
        have hwritten := h.written run hrun hstamped
        omega
      | false =>
        have hover := List.all_eq_true.mp hc run hrun
        rw [hstamped, Bool.false_or, decide_eq_true_eq] at hover
        have hearly := h.early run hrun hstamped
        omega
  | _ => rfl

/-- **Recovery** queues an article again at most twice between two recorded ends, in every run, and
overtakes no run where runs start in time. -/
theorem recovery_kept {tr : List ((State × Nat) × Action)} {p : State × Nat}
    (r : Run Initial (RecoveryStep U stuckMinutes) tr p) (limit : Nat) :
    Throughout (Capped U stuckMinutes) tr ∧ p.2 ≤ INDEX_RECOVERY_MAX_ATTEMPTS ∧
      (Throughout (Timely stuckMinutes limit) tr → Throughout (Spared U stuckMinutes) tr) := by
  have hinit : ∀ p : State × Nat, Initial p → Counted U p := by
    rintro ⟨s, n⟩ ⟨-, -, rfl⟩
    exact .zero s
  have hcounted : Counted U p := r.invariant (C := fun _ _ => True) hinit
    (fun _ _ _ hi _ hs => hi.of_step hs) fun _ _ => trivial
  refine ⟨?_, hcounted.le, fun hc => ?_⟩
  · exact r.always (C := fun _ _ => True) hinit (fun _ _ _ hi _ hs => hi.of_step hs)
      (fun _ a _ hi _ _ => hi.capped a) fun _ _ => trivial
  · refine r.always (I := fun p => Stamped stuckMinutes limit p.1)
      (C := Timely stuckMinutes limit) (P := Spared U stuckMinutes) ?_
      (fun p _ _ hi hc hs => Stamped.step (s := p.1) hi hc (effect_of_step hs).1)
      (fun _ _ _ hi hc _ => hi.spared hc) hc
    rintro ⟨s, n⟩ ⟨hruns, hpast, -⟩
    refine ⟨hpast, ?_, ?_⟩ <;> rw [hruns] <;> exact List.forall_mem_nil _

def published : State × Nat := (⟨0, true, ⟨.pending, none, 0⟩, []⟩, 0)

/-- A run is killed and queued again; the new one starts ten minutes later and comes to its end. -/
def requeuedRun : List Action :=
  [.begin true, .kill 0, .tick 4501, .pass true, .tick 600, .begin false, .load 0, .tick 3000,
    .pass true, .finish 0]

theorem recovery_kept_requeuedRun :
    Throughout (Spared Ask.ascii 75)
      ((play (watched (next Ask.ascii 75) (note Ask.ascii 75)) [] published requeuedRun).get
        (by decide +kernel)).1 :=
  (recovery_kept (run_play ⟨rfl, le_rfl, rfl⟩ (by decide +kernel)) 3600).2.2 (by decide +kernel)

/-- The new run starts an hour after the pass that queued it, behind others in the queue. -/
def lateRun : List Action :=
  [.begin true, .kill 0, .tick 4501, .pass true, .tick 3600, .begin false, .tick 901, .pass true]

theorem lateRun_plays :
    (play (watched (next Ask.ascii 75) (note Ask.ascii 75)) [] published lateRun).isSome = true := by
  decide +kernel

/-- The next pass queues the article again while that run is a quarter of an hour old. -/
theorem live_run_overtaken : ¬ ∀ (tr : List ((State × Nat) × Action)) (p : State × Nat),
    Run Initial (RecoveryStep Ask.ascii 75) tr p → Throughout (Spared Ask.ascii 75) tr := by
  intro h
  exact absurd (h _ _ (run_play ⟨rfl, le_rfl, rfl⟩ lateRun_plays)) (by decide +kernel)

end QnscKb.Indexing.Recovery
