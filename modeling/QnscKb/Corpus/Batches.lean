import Mathlib.Algebra.GroupWithZero.Nat
import Mathlib.Data.List.Perm.Subperm
import QnscKb.Corpus.Coverage

/-!
# Corpus — Batches

The batches of a question about many documents, and the accounting of its map step.
-/

namespace QnscKb.Corpus

/-! ### Within the budget -/

def size (batch : List Candidate) : Nat := (batch.map Candidate.tokens).sum

theorem size_append (batch : List Candidate) (candidate : Candidate) :
    size (batch ++ [candidate]) = size batch + candidate.tokens := by
  rw [size, List.map_append, List.sum_append, List.map_cons, List.map_nil, List.sum_singleton, size]

/-- Within the budget, or a document bigger than it on its own. -/
def Fits (budget : Nat) (batch : List Candidate) : Prop := size batch ≤ budget ∨ batch.length = 1

/-- The batches so far: the closed ones are not empty and fit, and so does the open one, whose size
is counted. -/
structure Packed (budget : Nat) (state : List (List Candidate) × List Candidate × Nat) : Prop where
  closed : ∀ batch ∈ state.1, batch ≠ [] ∧ Fits budget batch
  opened : state.2.1 = [] ∨ Fits budget state.2.1
  used : state.2.2 = size state.2.1

/-- One document more: each batch is within the budget, or has one document. -/
theorem packStep_fits {budget : Nat} {state : List (List Candidate) × List Candidate × Nat}
    (h : Packed budget state) (candidate : Candidate) :
    Packed budget (packStep budget state candidate) := by
  obtain ⟨batches, current, used⟩ := state
  obtain ⟨hclosed, hopened, hused⟩ := h
  change used = size current at hused
  rw [packStep]
  split
  · next hfull =>
    rw [Bool.and_eq_true, Bool.not_eq_true', List.isEmpty_eq_false_iff] at hfull
    refine ⟨fun batch hbatch => ?_, .inr (.inr rfl), ?_⟩
    · rcases List.mem_append.mp hbatch with hold | hnew
      · exact hclosed batch hold
      · rw [List.mem_singleton.mp hnew]
        exact ⟨hfull.1, hopened.resolve_left hfull.1⟩
    · exact (size_append [] candidate).symm ▸ (Nat.zero_add _).symm
  · next hroom =>
    refine ⟨hclosed, .inr ?_, hused ▸ (size_append current candidate).symm⟩
    by_cases hnone : current = []
    · rw [hnone]
      exact .inr rfl
    · left
      rw [size_append, ← hused]
      simpa [hnone] using hroom

theorem foldl_packed (candidates : List Candidate) (budget : Nat) :
    Packed budget (candidates.foldl (packStep budget) ([], [], 0)) := by
  induction candidates using List.reverseRecOn with
  | nil => exact ⟨fun _ h => absurd h List.not_mem_nil, .inl rfl, rfl⟩
  | append_singleton candidates candidate ih =>
    rw [List.foldl_append]
    exact packStep_fits ih candidate

variable {batch : List Candidate}

/-- **Each batch is within the budget, or a single document.** -/
theorem packBatches_fits {candidates : List Candidate} {budget : Nat}
    (h : batch ∈ packBatches candidates budget) : batch ≠ [] ∧ Fits budget batch := by
  have hpacked := foldl_packed candidates budget
  rw [packBatches] at h
  rcases hstate : candidates.foldl (packStep budget) ([], [], 0) with ⟨batches, current, used⟩
  dsimp only at h
  split at h
  · exact hpacked.closed batch h
  · next hsome =>
    rcases List.mem_append.mp h with hold | hlast
    · exact hpacked.closed batch hold
    · rw [List.mem_singleton.mp hlast]
      rw [Bool.not_eq_true, List.isEmpty_eq_false_iff] at hsome
      exact ⟨hsome, hpacked.opened.resolve_left hsome⟩

/-! ### What is kept of a batch -/

def MapReply.unread : MapReply → Bool
  | .failed => true
  | .reply relevant => relevant.isNone

def kept (reply : MapReply) (batch : List Candidate) : List Candidate :=
  match reply with
  | .failed => batch
  | .reply relevant =>
    match parseMapReply relevant ((handles batch).map Prod.fst) with
    | none => batch
    | some picked => (pickedItems batch picked).map Prod.fst

theorem kept_unread {reply : MapReply} (h : reply.unread = true) (batch : List Candidate) :
    kept reply batch = batch := by
  cases reply with
  | failed => rfl
  | reply relevant =>
    rw [MapReply.unread, Option.isNone_iff_eq_none] at h
    rw [h]
    rfl

theorem handles_snd (batch : List Candidate) : (handles batch).map Prod.snd = batch := by
  rw [handles, List.map_map]
  exact List.zipIdx_map_fst 0 batch

theorem pickedItems_subperm {picked : List (Text × Text)} (hpicked : (picked.map Prod.fst).Nodup) :
    ((pickedItems batch picked).map Prod.fst).Subperm batch := by
  -- the handles tell the places apart, also where a document is there twice
  have hhandles : ((picked.map Prod.fst).filterMap fun handle =>
      ((handles batch).lookup handle).map fun candidate => (handle, candidate)).Nodup := by
    refine hpicked.filterMap fun handle other item hitem hother => ?_
    obtain ⟨c, -, rfl⟩ := Option.map_eq_some_iff.mp hitem
    obtain ⟨d, -, hsame⟩ := Option.map_eq_some_iff.mp hother
    exact (congrArg Prod.fst hsame).symm
  have hsubset : ((picked.map Prod.fst).filterMap fun handle =>
      ((handles batch).lookup handle).map fun candidate => (handle, candidate)) ⊆
        handles batch := by
    intro item hitem
    obtain ⟨handle, -, hfound⟩ := List.mem_filterMap.mp hitem
    obtain ⟨candidate, hlookup, rfl⟩ := Option.map_eq_some_iff.mp hfound
    obtain ⟨before, after, heq, -⟩ := List.lookup_eq_some_iff.mp hlookup
    rw [heq]
    exact List.mem_append_right _ (List.mem_cons_self ..)
  obtain ⟨places, hperm, hplaces⟩ := List.subperm_of_subset hhandles hsubset
  refine ⟨places.map Prod.snd, (hperm.map Prod.snd).trans (.of_eq ?_),
    handles_snd batch ▸ hplaces.map Prod.snd⟩
  rw [pickedItems, List.map_filterMap, List.map_filterMap, List.filterMap_map]
  refine List.filterMap_congr fun item _ => ?_
  simp [Function.comp_def]

/-- What is kept of a batch is some of it, each of its places once. -/
theorem kept_subperm (reply : MapReply) (batch : List Candidate) :
    (kept reply batch).Subperm batch := by
  cases reply with
  | failed => exact List.Subperm.refl batch
  | reply relevant =>
    rw [kept]
    cases hpicked : parseMapReply relevant ((handles batch).map Prod.fst) with
    | none => exact List.Subperm.refl batch
    | some picked => exact pickedItems_subperm (parseMapReply_nodup hpicked)

/-! ### The account of the map step -/

/-- The account of some batches: the first `maxCalls` of them are read, the others counted as
skipped. -/
structure Accounted (batches : List (List Candidate)) (maxCalls : Nat) (replies : Nat → MapReply)
    (outcome : MapOutcome) : Prop where
  calls : outcome.calls = min batches.length maxCalls
  failed : outcome.failedBatches =
    (List.range outcome.calls).countP fun i => (replies i).unread
  skipped : outcome.skippedDocs = (batches.drop maxCalls).flatten.length
  selected : outcome.selected =
    ((batches.take maxCalls).zipIdx.map fun batch => kept (replies batch.2) batch.1).flatten

variable {batches : List (List Candidate)} {maxCalls : Nat} {replies : Nat → MapReply}

theorem accounted_start : Accounted [] maxCalls replies MapOutcome.start :=
  ⟨(Nat.zero_min _).symm, rfl, by rw [List.drop_nil]; rfl, by rw [List.take_nil]; rfl⟩

variable {outcome : MapOutcome}

theorem mapBatch_skipped (h : maxCalls ≤ outcome.calls) (batch : List Candidate) :
    mapBatch maxCalls replies outcome batch =
      { outcome with skippedDocs := outcome.skippedDocs + batch.length } := by
  rw [mapBatch, if_pos h]

theorem mapBatch_called {next : MapOutcome} (h : ¬maxCalls ≤ outcome.calls)
    (hnext : next = mapBatch maxCalls replies outcome batch) :
    next.calls = outcome.calls + 1 ∧
      next.failedBatches =
        outcome.failedBatches + (if (replies outcome.calls).unread then 1 else 0) ∧
      next.skippedDocs = outcome.skippedDocs ∧
      next.selected = outcome.selected ++ kept (replies outcome.calls) batch := by
  rw [mapBatch, if_neg h] at hnext
  rw [hnext]
  cases replies outcome.calls with
  | failed => exact ⟨rfl, rfl, rfl, rfl⟩
  | reply relevant =>
    cases relevant with
    | none => exact ⟨rfl, rfl, rfl, rfl⟩
    | some entries => exact ⟨rfl, rfl, rfl, rfl⟩

/-- **What a batch adds to the account.** -/
theorem Accounted.step (h : Accounted batches maxCalls replies outcome) (batch : List Candidate) :
    Accounted (batches ++ [batch]) maxCalls replies
      (mapBatch maxCalls replies outcome batch) := by
  have hcalls := h.calls
  by_cases hfull : maxCalls ≤ batches.length
  · rw [mapBatch_skipped (hcalls.symm ▸ le_min hfull le_rfl)]
    refine ⟨?_, h.failed, ?_, ?_⟩
    · rw [List.length_append]
      dsimp only
      omega
    · rw [List.drop_append_of_le_length hfull, List.flatten_append, List.flatten_singleton,
        List.length_append, ← h.skipped]
    · rw [List.take_append_of_le_length hfull]
      exact h.selected
  · have hall : outcome.calls = batches.length := by omega
    have hcall : ¬maxCalls ≤ outcome.calls := hall.symm ▸ hfull
    obtain ⟨hnext, hfailed, hskipped, hselected⟩ :=
      mapBatch_called hcall (rfl : _ = mapBatch maxCalls replies outcome batch)
    have hlength : (batches ++ [batch]).length ≤ maxCalls := by
      rw [List.length_append]
      exact Nat.lt_of_not_le hfull
    refine ⟨?_, ?_, ?_, ?_⟩
    · rw [hnext, hall, Nat.min_eq_left hlength, List.length_append]
      rfl
    · rw [hfailed, hnext, List.range_succ, List.countP_append, List.countP_singleton, h.failed]
    · rw [hskipped, h.skipped, List.drop_of_length_le hlength,
        List.drop_of_length_le (Nat.le_of_not_le hfull)]
    · rw [hselected, h.selected, List.take_of_length_le hlength,
        List.take_of_length_le (Nat.le_of_not_le hfull), List.zipIdx_append, List.map_append,
        List.flatten_append, hall, Nat.zero_add]
      exact congrArg _ (List.append_nil _).symm

theorem accounted_mapCandidates (batches : List (List Candidate)) (maxCalls : Nat)
    (replies : Nat → MapReply) :
    Accounted batches maxCalls replies (mapCandidates batches maxCalls replies) := by
  induction batches using List.reverseRecOn with
  | nil => exact accounted_start
  | append_singleton batches batch ih =>
    rw [mapCandidates, List.foldl_append]
    exact ih.step batch

theorem kept_all_subperm (replies : Nat → MapReply) (batches : List (List Candidate))
    (start : Nat) :
    ((batches.zipIdx start).map fun batch => kept (replies batch.2) batch.1).flatten.Subperm
      batches.flatten := by
  induction batches generalizing start with
  | nil => exact List.Subperm.refl []
  | cons batch batches ih =>
    exact (kept_subperm (replies start) batch).append (ih (start + 1))

theorem Accounted.subperm (h : Accounted batches maxCalls replies outcome) :
    outcome.selected.Subperm (batches.take maxCalls).flatten :=
  h.selected ▸ kept_all_subperm replies (batches.take maxCalls) 0

theorem Accounted.unread (h : Accounted batches maxCalls replies outcome) {i : Nat}
    (hcall : i < maxCalls) (hbatch : batches[i]? = some batch)
    (hunread : (replies i).unread = true) : batch.IsInfix outcome.selected := by
  rw [h.selected, ← kept_unread hunread batch]
  refine List.infix_of_mem_flatten (List.mem_map.mpr ⟨(batch, i), ?_, rfl⟩)
  rw [List.mem_zipIdx_iff_getElem?, List.getElem?_take_of_lt hcall]
  exact hbatch

/-- **The batches and the account of the map step.**  The batches are the candidates in order, each
within the budget or a single document.  The first `maxCalls` get a call each, which selects the
documents its reply names, in the order of the reply, or the whole batch where it failed or cannot
be read; none more often than the batches have it.  The skipped ones are those of the batches
without a call. -/
theorem accounted_batches (candidates : List Candidate) (budget : Nat)
    (batches : List (List Candidate)) (maxCalls : Nat) (replies : Nat → MapReply) :
    (packBatches candidates budget).flatten = candidates ∧
      (∀ batch ∈ packBatches candidates budget, batch ≠ [] ∧ Fits budget batch) ∧
      Accounted batches maxCalls replies (mapCandidates batches maxCalls replies) ∧
      (mapCandidates batches maxCalls replies).selected.Subperm (batches.take maxCalls).flatten ∧
      (batches.flatten.Nodup → (mapCandidates batches maxCalls replies).selected.Nodup) ∧
      ∀ i < maxCalls, ∀ batch, batches[i]? = some batch → (replies i).unread = true →
        batch.IsInfix (mapCandidates batches maxCalls replies).selected := by
  have hacc := accounted_mapCandidates batches maxCalls replies
  refine ⟨packBatches_flatten candidates budget, fun batch => packBatches_fits, hacc,
    hacc.subperm, fun hnodup => ?_, fun i hcall batch => hacc.unread hcall⟩
  obtain ⟨places, hperm, hplaces⟩ := hacc.subperm
  rw [← List.take_append_drop maxCalls batches, List.flatten_append] at hnodup
  exact hperm.nodup_iff.mp ((List.nodup_append.mp hnodup).1.sublist hplaces)

def brief (articleId : Text) : Candidate := ⟨articleId, ['T'], [], [], ['S'], [], [], ['h']⟩

/-- Of two batches and one call, which fails, the first is selected whole and the second counted as
skipped. -/
theorem one_failed_call : [brief ['a'], brief ['b']].IsInfix
    (mapCandidates [[brief ['a'], brief ['b']], [brief ['c'], brief ['d']]] 1
      fun _ => .failed).selected :=
  (accounted_batches [] 0 [[brief ['a'], brief ['b']], [brief ['c'], brief ['d']]] 1
    fun _ => .failed).2.2.2.2.2 0 Nat.one_pos _ rfl rfl

/-- A reply that names the second document first puts it first; a document twice in a batch is
selected twice when the call fails. -/
theorem order_of_the_reply :
    ¬(mapCandidates [[brief ['a'], brief ['b']]] 1
        fun _ => .reply (some [.plain ['D', '2'], .plain ['D', '1']])).selected.Sublist
          [brief ['a'], brief ['b']] ∧
      ¬(mapCandidates [[brief ['a'], brief ['a']]] 1 fun _ => .failed).selected.Nodup := by
  constructor
  · intro hsublist
    have hids := hsublist.map Candidate.articleId
    exact absurd hids (by decide +kernel)
  · intro hnodup
    exact List.not_nodup_pair (brief ['a']) hnodup

end QnscKb.Corpus
