import QnscKb.Lib.Rows
import QnscKb.Review.Batch

/-!
# Review — Candidates

A reviewer renames, discards, merges and splits the candidates of a draft (`review_candidate` of
`src/domain/governance.py`).  A call changes the rows in its session and writes them out one by one,
in the order of their keys, so that `uq_draft_candidate_position` can stop it on the way.
-/

namespace QnscKb.Candidates

open Review (Refusal)
open Access (Id)
open Batch (CandidateStatus)

/-- `DraftCandidate`, of one draft. -/
structure Candidate where
  id : Id
  position : Nat
  title : Text
  bodyMd : Text
  sourceStart : Nat
  sourceEnd : Nat
  heading : Option Text
  departmentIds : List Id
  status : CandidateStatus
  reviewNote : Text
  deriving DecidableEq

inductive Operation
  | rename | setDepartments | discard | merge | split | unsupported
  deriving DecidableEq

/-- A call, with what its checks raise, what `resolve_active_departments` answers and the key a new
row gets. -/
structure Call where
  refusal : Option Refusal
  operation : Operation
  candidateId : Id
  otherCandidateId : Option Id
  title : Option Text
  splitAt : Option Int
  departments : Except Refusal (List Id)
  note : Option Text
  newId : Id

def byId (rows : List Candidate) (id : Id) : Option Candidate := Rows.get Candidate.id id rows

def set (row : Candidate) (rows : List Candidate) : List Candidate :=
  Rows.update (fun r => r.id == row.id) (fun _ => row) rows

/-! ### Operations -/

def inOrder (candidate other : Candidate) : Candidate × Candidate :=
  if candidate.position ≤ other.position then (candidate, other) else (other, candidate)

/-- The first of two merged candidates. -/
def joined (call : Call) (first second : Candidate) : Candidate :=
  { first with
    bodyMd := Text.rstrip first.bodyMd ++ ("\n\n".toList ++ Text.lstrip second.bodyMd)
    sourceEnd := max first.sourceEnd second.sourceEnd
    title := (Text.orElse call.title first.title).take 255 }

def away (call : Call) (first second : Candidate) : Candidate :=
  { second with
    status := .discarded
    reviewNote := (Text.orElse call.note
      ("Merged into candidate ".toList ++ Nat.toDigits 10 first.position)).take 2000 }

def boundary (call : Call) (candidate : Candidate) : Int :=
  let half : Int := candidate.bodyMd.length / 2
  match call.splitAt with
  | none => half
  | some place => if place = 0 then half else place

def leftOf (call : Call) (candidate : Candidate) : Text :=
  Text.rstrip (candidate.bodyMd.take (boundary call candidate).toNat)

def rightOf (call : Call) (candidate : Candidate) : Text :=
  Text.lstrip (candidate.bodyMd.drop (boundary call candidate).toNat)

/-- What a split does to a row that is there: the candidate keeps the left part, and the active ones
behind it move. -/
def shifted (call : Call) (candidate row : Candidate) : Candidate :=
  if row.id = candidate.id then
    { row with
      bodyMd := leftOf call candidate
      sourceEnd := candidate.sourceStart + (leftOf call candidate).length }
  else if row.status = .candidate ∧ candidate.position < row.position then
    { row with position := row.position + 1 }
  else row

/-- The row of the right part. -/
def continued (call : Call) (candidate : Candidate) : Candidate where
  id := call.newId
  position := candidate.position + 1
  title := (Text.orElse call.title (candidate.title ++ " — continued".toList)).take 255
  bodyMd := rightOf call candidate
  sourceStart := candidate.sourceStart + (leftOf call candidate).length
  sourceEnd := candidate.sourceEnd
  heading := candidate.heading
  departmentIds := candidate.departmentIds
  status := .candidate
  reviewNote := []

def otherOf (rows : List Candidate) (call : Call) (candidate : Candidate) : Option Candidate :=
  (call.otherCandidateId.bind (byId rows)).filter fun other =>
    other.status == .candidate && other.id != candidate.id

def modified (rows : List Candidate) (call : Call) : Except Refusal (List Candidate) :=
  match (byId rows call.candidateId).filter fun c => c.status == .candidate with
  | none => .error ⟨404, "Candidate not found"⟩
  | some candidate =>
    match call.operation with
    | .rename =>
      if (Text.strip (call.title.getD [])).isEmpty then
        .error ⟨422, "A candidate title is required"⟩
      else .ok (set { candidate with title := (Text.strip (call.title.getD [])).take 255 } rows)
    | .setDepartments =>
      match call.departments with
      | .error refusal => .error refusal
      | .ok ids => .ok (set { candidate with departmentIds := ids } rows)
    | .discard =>
      .ok (set { candidate with
        status := .discarded
        reviewNote :=
          (Text.orElse call.note "Discarded during batch review".toList).take 2000 } rows)
    | .merge =>
      match otherOf rows call candidate with
      | none => .error ⟨422, "Choose another active candidate to merge"⟩
      | some other =>
        let pair := inOrder candidate other
        .ok (set (joined call pair.1 pair.2) (set (away call pair.1 pair.2) rows))
    | .split =>
      if boundary call candidate < 1 ∨ candidate.bodyMd.length ≤ boundary call candidate then
        .error ⟨422, "The split position must be inside the candidate text"⟩
      else .ok (rows.map (shifted call candidate) ++ [continued call candidate])
    | .unsupported => .error ⟨422, "Unsupported candidate operation"⟩

/-! ### Writing out -/

def collides (rows : List Candidate) (row : Candidate) : Bool :=
  rows.any fun other => other.id != row.id && other.position == row.position

/-- `UPDATE` of a row, or its `INSERT`, under the constraint. -/
def writeRow (rows : List Candidate) (row : Candidate) : Option (List Candidate) :=
  if collides rows row then none
  else if (byId rows row.id).isSome then some (set row rows)
  else some (rows ++ [row])

/-- The changed rows in the order of their keys, then the new ones. -/
def statements (rows changed : List Candidate) : List Candidate :=
  ((changed.filter fun row => (byId rows row.id).isSome && !rows.contains row).insertionSort
      fun x y => x.id ≤ y.id) ++
    changed.filter fun row => (byId rows row.id).isNone

def flush (rows changed : List Candidate) : Option (List Candidate) :=
  (statements rows changed).foldlM writeRow rows

inductive Failure
  | refused (refusal : Refusal)
  | uniqueViolation
  deriving DecidableEq

/-- `review_candidate`: the rows after its commit. -/
def reviewCandidate (rows : List Candidate) (call : Call) : Except Failure (List Candidate) :=
  match call.refusal with
  | some refusal => .error (.refused refusal)
  | none =>
    match modified rows call with
    | .error refusal => .error (.refused refusal)
    | .ok changed =>
      match flush rows changed with
      | none => .error .uniqueViolation
      | some written => .ok written

/-! ### What a call does -/

/-- The rows a call can leave in its session. -/
inductive Effect (rows : List Candidate) (call : Call) (c : Candidate) : List Candidate → Prop
  | kept {row : Candidate} (hop : call.operation ≠ .merge ∧ call.operation ≠ .split)
      (hid : row.id = c.id) (hposition : row.position = c.position) (hbody : row.bodyMd = c.bodyMd)
      (hspan : row.sourceStart = c.sourceStart ∧ row.sourceEnd = c.sourceEnd)
      (hstatus : row.status = .candidate ∨ row.status = .discarded) :
      Effect rows call c (set row rows)
  | merged {other : Candidate} (hop : call.operation = .merge)
      (hother : otherOf rows call c = some other) :
      Effect rows call c (set (joined call (inOrder c other).1 (inOrder c other).2)
        (set (away call (inOrder c other).1 (inOrder c other).2) rows))
  | split (hop : call.operation = .split)
      (hinside : 1 ≤ boundary call c ∧ boundary call c < c.bodyMd.length) :
      Effect rows call c (rows.map (shifted call c) ++ [continued call c])

/-- **What a call does to the rows** of its session. -/
theorem modified_cases {rows changed : List Candidate} {call : Call}
    (h : modified rows call = .ok changed) :
    ∃ c ∈ rows, c.id = call.candidateId ∧ c.status = .candidate ∧ Effect rows call c changed := by
  rw [modified] at h
  split at h
  · cases h
  · next c hfound =>
    obtain ⟨hget, hactive⟩ := Option.filter_eq_some_iff.mp hfound
    have hstatus : c.status = .candidate := beq_iff_eq.mp hactive
    refine ⟨c, Rows.mem_of_get hget, Rows.key_of_get hget, hstatus, ?_⟩
    split at h
    · next hop =>
      split at h
      · cases h
      · obtain rfl := Except.ok.inj h
        exact .kept (by simp [hop]) rfl rfl rfl ⟨rfl, rfl⟩ (.inl hstatus)
    · next hop =>
      split at h
      · cases h
      · obtain rfl := Except.ok.inj h
        exact .kept (by simp [hop]) rfl rfl rfl ⟨rfl, rfl⟩ (.inl hstatus)
    · next hop =>
      obtain rfl := Except.ok.inj h
      exact .kept (by simp [hop]) rfl rfl rfl ⟨rfl, rfl⟩ (.inr rfl)
    · next hop =>
      split at h
      · cases h
      · next other hother =>
        obtain rfl := Except.ok.inj h
        exact .merged hop hother
    · next hop =>
      split at h
      · cases h
      · next hinside =>
        obtain rfl := Except.ok.inj h
        rw [not_or, Int.not_lt, Int.not_le] at hinside
        exact .split hop hinside
    · cases h

theorem mem_of_otherOf {rows : List Candidate} {call : Call} {c other : Candidate}
    (h : otherOf rows call c = some other) :
    other ∈ rows ∧ other.status = .candidate ∧ other.id ≠ c.id := by
  obtain ⟨hget, hactive⟩ := Option.filter_eq_some_iff.mp h
  obtain ⟨id, -, hget⟩ := Option.bind_eq_some_iff.mp hget
  rw [Bool.and_eq_true, beq_iff_eq, bne_iff_ne] at hactive
  exact ⟨Rows.mem_of_get hget, hactive⟩

/-! ### The constraint -/

/-- The keys of a draft's rows, and their positions. -/
structure Unique (rows : List Candidate) : Prop where
  ids : (rows.map (·.id)).Nodup
  positions : (rows.map (·.position)).Nodup

variable {rows : List Candidate}

theorem isSome_byId {id : Id} : (byId rows id).isSome = true ↔ id ∈ rows.map (·.id) := by
  rw [byId, Rows.get]
  simp

theorem map_id_set (row : Candidate) : (set row rows).map (·.id) = rows.map (·.id) :=
  Rows.map_update fun _ _ hr => (beq_iff_eq.mp hr).symm

theorem Unique.set (h : Unique rows) {row : Candidate} (hfree : collides rows row = false) :
    Unique (set row rows) where
  ids := by
    rw [map_id_set]
    exact h.ids
  positions := by
    refine Rows.nodup_update h.ids h.positions ?_
    intro _ _ _ other hother hne heq
    have hhit : collides rows row = true :=
      List.any_eq_true.mpr ⟨other, hother, by simp [hne, heq]⟩
    rw [hfree] at hhit
    cases hhit

theorem foldlM_updates {written t : List Candidate} (hunique : Unique rows)
    (hin : ∀ row ∈ written, row.id ∈ rows.map (·.id))
    (h : written.foldlM writeRow rows = some t) :
    Unique t ∧ t = written.foldl (fun rows row => set row rows) rows := by
  induction written generalizing rows with
  | nil =>
    obtain rfl : rows = t := Option.some.inj h
    exact ⟨hunique, rfl⟩
  | cons row written ih =>
    obtain ⟨hrow, hin⟩ := List.forall_mem_cons.mp hin
    obtain ⟨next, hnext, h⟩ := Option.bind_eq_some_iff.mp h
    rw [writeRow, if_pos (isSome_byId.mpr hrow)] at hnext
    split at hnext
    · cases hnext
    · next hfree =>
      obtain rfl := Option.some.inj hnext
      have hfalse : collides rows row = false := by simpa using hfree
      refine ih (hunique.set hfalse) ?_ h
      rw [map_id_set]
      exact hin

variable {f : Candidate → Candidate} {new : Option Candidate}

/-- What the session holds: the rows changed by `f`, and perhaps a new one. -/
structure Changed (rows : List Candidate) (f : Candidate → Candidate) (new : Option Candidate) :
    Prop where
  ids : ∀ row ∈ rows, (f row).id = row.id
  fresh : ∀ added ∈ new, added.id ∉ rows.map (·.id)

theorem Changed.map_id (h : Changed rows f new) : (rows.map f).map (·.id) = rows.map (·.id) := by
  rw [List.map_map]
  exact List.map_congr_left h.ids

def updates (rows changed : List Candidate) : List Candidate :=
  (changed.filter fun row => (byId rows row.id).isSome && !rows.contains row).insertionSort
    fun x y => x.id ≤ y.id

theorem mem_updates {changed : List Candidate} {row : Candidate} :
    row ∈ updates rows changed ↔
      row ∈ changed ∧ row.id ∈ rows.map (·.id) ∧ row ∉ rows := by
  rw [updates, List.mem_insertionSort, List.mem_filter, Bool.and_eq_true, isSome_byId]
  simp

theorem inserts_eq (h : Changed rows f new) :
    ((rows.map f ++ new.toList).filter fun row => (byId rows row.id).isNone) = new.toList := by
  have hold : (rows.map f).filter (fun row => (byId rows row.id).isNone) = [] := by
    rw [List.filter_eq_nil_iff]
    intro row hrow hnone
    obtain ⟨r, hr, rfl⟩ := List.mem_map.mp hrow
    have hsome : (byId rows (f r).id).isSome = true :=
      isSome_byId.mpr (h.ids r hr ▸ List.mem_map_of_mem hr)
    rw [Option.isNone_iff_eq_none] at hnone
    rw [hnone] at hsome
    cases hsome
  have hnew : new.toList.filter (fun row => (byId rows row.id).isNone) = new.toList := by
    rw [List.filter_eq_self]
    intro row hrow
    rw [Option.isNone_iff_eq_none, ← Option.not_isSome_iff_eq_none, isSome_byId]
    exact h.fresh row (Option.mem_toList.mp hrow)
  rw [List.filter_append, hold, hnew, List.nil_append]

theorem foldl_updates (hunique : Unique rows) (h : Changed rows f new) :
    (updates rows (rows.map f ++ new.toList)).foldl (fun rows row => set row rows) rows =
      rows.map f := by
  have hmem : ∀ {row}, row ∈ updates rows (rows.map f ++ new.toList) →
      ∃ r ∈ rows, f r = row := by
    intro row hrow
    obtain ⟨hin, hold, -⟩ := mem_updates.mp hrow
    rcases List.mem_append.mp hin with hin | hin
    · exact List.mem_map.mp hin
    · exact absurd hold (h.fresh row (Option.mem_toList.mp hin))
  have hkeys : ((updates rows (rows.map f ++ new.toList)).map (·.id)).Nodup := by
    have hall : ((rows.map f ++ new.toList).map (·.id)).Nodup := by
      rw [List.map_append, h.map_id, List.nodup_append]
      refine ⟨hunique.ids, ?_, ?_⟩
      · cases new <;> simp
      · rintro a ha b hb rfl
        obtain ⟨added, hadded, rfl⟩ := List.mem_map.mp hb
        exact h.fresh added (Option.mem_toList.mp hadded) ha
    rw [updates, (List.perm_insertionSort _ _).map _ |>.nodup_iff]
    exact hall.sublist (List.filter_sublist.map _)
  have hfold : (updates rows (rows.map f ++ new.toList)).foldl (fun rows row => set row rows) rows =
      rows.map fun r =>
        (Rows.get Candidate.id r.id (updates rows (rows.map f ++ new.toList))).getD r :=
    Rows.foldl_write hkeys
  rw [hfold]
  refine List.map_congr_left fun r hr => ?_
  cases hget : Rows.get Candidate.id r.id (updates rows (rows.map f ++ new.toList)) with
  | none =>
    -- the row was not written, so it did not change
    by_contra hne
    have hout : f r ∉ rows := fun hin =>
      hne (List.inj_on_of_nodup_map hunique.ids hr hin (h.ids r hr).symm)
    have hwritten : f r ∈ updates rows (rows.map f ++ new.toList) :=
      mem_updates.mpr ⟨List.mem_append_left _ (List.mem_map_of_mem hr),
        h.ids r hr ▸ List.mem_map_of_mem hr, hout⟩
    have hno := List.find?_eq_none.mp hget (f r) hwritten
    rw [beq_iff_eq] at hno
    exact hno (h.ids r hr)
  | some row =>
    obtain ⟨q, hq, hrow⟩ := hmem (Rows.mem_of_get hget)
    have hid : q.id = r.id := by
      rw [← h.ids q hq, hrow]
      exact Rows.key_of_get hget
    have hsame : q = r := List.inj_on_of_nodup_map hunique.ids hq hr hid
    rw [Option.getD_some, ← hrow, hsame]

/-- **What is written** is what the session holds, and meets the constraint. -/
theorem flush_eq {t : List Candidate} (hunique : Unique rows) (h : Changed rows f new)
    (hflush : flush rows (rows.map f ++ new.toList) = some t) :
    t = rows.map f ++ new.toList ∧ Unique t := by
  have hstatements : statements rows (rows.map f ++ new.toList) =
      updates rows (rows.map f ++ new.toList) ++ new.toList := by
    rw [statements, inserts_eq h]
    rfl
  rw [flush, hstatements, List.foldlM_append] at hflush
  obtain ⟨u, hu, hflush⟩ := Option.bind_eq_some_iff.mp hflush
  obtain ⟨huniqueu, hrows⟩ :=
    foldlM_updates hunique (fun row hrow => (mem_updates.mp hrow).2.1) hu
  rw [foldl_updates hunique h] at hrows
  subst hrows
  cases new with
  | none =>
    obtain rfl := Option.some.inj hflush
    exact ⟨(List.append_nil _).symm, huniqueu⟩
  | some added =>
    have hfresh : added.id ∉ (rows.map f).map (·.id) := by
      rw [h.map_id]
      exact h.fresh added rfl
    obtain ⟨v, hv, hflush⟩ := Option.bind_eq_some_iff.mp hflush
    obtain rfl := Option.some.inj hflush
    rw [writeRow, if_neg (mt isSome_byId.mp hfresh)] at hv
    split at hv
    · cases hv
    · next hfree =>
      obtain rfl := Option.some.inj hv
      refine ⟨rfl, ?_, ?_⟩
      · rw [List.map_append, List.nodup_append]
        refine ⟨huniqueu.ids, List.nodup_singleton _, ?_⟩
        rintro a ha b hb rfl
        obtain rfl := List.mem_singleton.mp hb
        exact hfresh ha
      · rw [List.map_append, List.nodup_append]
        refine ⟨huniqueu.positions, List.nodup_singleton _, ?_⟩
        rintro a ha b hb rfl
        obtain rfl := List.mem_singleton.mp hb
        obtain ⟨other, hother, heq⟩ := List.mem_map.mp ha
        refine hfree (List.any_eq_true.mpr ⟨other, hother, ?_⟩)
        have hne : other.id ≠ added.id := fun hid => hfresh (hid ▸ List.mem_map_of_mem hother)
        simp [hne, heq]

theorem foldlM_unmoved {written : List Candidate} (hunique : Unique rows)
    (hin : ∀ row ∈ written, ∃ r ∈ rows, r.id = row.id ∧ r.position = row.position) :
    ∃ t, written.foldlM writeRow rows = some t := by
  induction written generalizing rows with
  | nil => exact ⟨rows, rfl⟩
  | cons row written ih =>
    obtain ⟨⟨r, hr, hid, hposition⟩, hin⟩ := List.forall_mem_cons.mp hin
    have hfree : collides rows row = false := by
      rw [Bool.eq_false_iff]
      intro hhit
      obtain ⟨other, hother, hboth⟩ := List.any_eq_true.mp hhit
      rw [Bool.and_eq_true, bne_iff_ne, beq_iff_eq] at hboth
      have hsame : other = r := List.inj_on_of_nodup_map hunique.positions hother hr
        (hboth.2.trans hposition.symm)
      exact hboth.1 (hsame ▸ hid)
    have hwrite : writeRow rows row = some (set row rows) := by
      rw [writeRow, hfree, if_neg Bool.false_ne_true,
        if_pos (isSome_byId.mpr (hid ▸ List.mem_map_of_mem hr))]
    obtain ⟨t, ht⟩ := ih (hunique.set hfree) fun other hother => by
      obtain ⟨q, hq, hqid, hqposition⟩ := hin other hother
      refine ⟨if q.id == row.id then row else q, List.mem_map_of_mem hq, ?_⟩
      by_cases heq : q.id = row.id
      · have hsame : q = r := List.inj_on_of_nodup_map hunique.ids hq hr (heq.trans hid.symm)
        rw [if_pos (beq_iff_eq.mpr heq)]
        exact ⟨heq.symm.trans hqid, (hposition.symm.trans (hsame ▸ rfl)).trans hqposition⟩
      · rw [if_neg (mt beq_iff_eq.mp heq)]
        exact ⟨hqid, hqposition⟩
    exact ⟨t, by rw [List.foldlM_cons, hwrite]; exact ht⟩

/-- **A call that moves no row** is not stopped by the constraint. -/
theorem flush_unmoved (hunique : Unique rows) (h : Changed rows f none)
    (hposition : ∀ row ∈ rows, (f row).position = row.position) :
    flush rows (rows.map f) = some (rows.map f) := by
  have hstatements : statements rows (rows.map f) = updates rows (rows.map f) := by
    have hinserts := inserts_eq h
    rw [Option.toList_none, List.append_nil] at hinserts
    rw [statements, hinserts, List.append_nil]
    rfl
  obtain ⟨t, ht⟩ : ∃ t, flush rows (rows.map f) = some t := by
    rw [flush, hstatements]
    refine foldlM_unmoved hunique fun row hrow => ?_
    obtain ⟨r, hr, rfl⟩ := List.mem_map.mp (mem_updates.mp hrow).1
    exact ⟨r, hr, (h.ids r hr).symm, (hposition r hr).symm⟩
  have hall : flush rows (rows.map f ++ (none : Option Candidate).toList) = some t := by
    rw [Option.toList_none, List.append_nil]
    exact ht
  rw [ht, (flush_eq hunique h hall).1, Option.toList_none, List.append_nil]

end QnscKb.Candidates
