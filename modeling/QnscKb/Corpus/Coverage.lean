import Mathlib.Data.List.Dedup
import Mathlib.Data.List.Induction
import Mathlib.Data.List.Nodup
import QnscKb.Corpus.Model

/-!
# Corpus — Coverage

What the coverage that is stated with an answer promises.
-/

namespace QnscKb.Corpus

theorem packStep_flatten (budget : Nat) (state : List (List Candidate) × List Candidate × Nat)
    (candidate : Candidate) :
    (packStep budget state candidate).1.flatten ++ (packStep budget state candidate).2.1 =
      state.1.flatten ++ state.2.1 ++ [candidate] := by
  obtain ⟨batches, current, used⟩ := state
  rw [packStep]
  split
  · rw [List.flatten_append, List.flatten_singleton]
  · rw [List.append_assoc]

/-- **No document is lost between the batches.** -/
theorem packBatches_flatten (candidates : List Candidate) (budget : Nat) :
    (packBatches candidates budget).flatten = candidates := by
  have hfold : (candidates.foldl (packStep budget) ([], [], 0)).1.flatten ++
      (candidates.foldl (packStep budget) ([], [], 0)).2.1 = candidates := by
    induction candidates using List.reverseRecOn with
    | nil => rfl
    | append_singleton candidates candidate ih =>
      rw [List.foldl_append, List.foldl_cons, List.foldl_nil, packStep_flatten, ih]
  rw [packBatches]
  rcases hstate : candidates.foldl (packStep budget) ([], [], 0) with ⟨batches, current, used⟩
  rw [hstate] at hfold
  dsimp only at hfold ⊢
  split
  · next hnone => rw [← hfold, List.isEmpty_iff.mp hnone, List.append_nil]
  · rw [List.flatten_append, List.flatten_singleton, hfold]

/-! ### The map step -/

def ids (candidates : List Candidate) : List Text := candidates.map Candidate.articleId

theorem mem_handles {batch : List Candidate} {handle : Text} {candidate : Candidate}
    (h : (handles batch).lookup handle = some candidate) :
    ∃ i, batch[i]? = some candidate ∧ handle = handleText i := by
  have hmem : (handle, candidate) ∈ handles batch := by
    obtain ⟨before, after, heq, -⟩ := List.lookup_eq_some_iff.mp h
    rw [heq]
    exact List.mem_append_right _ (List.mem_cons_self ..)
  obtain ⟨⟨c, i⟩, hin, heq⟩ := List.mem_map.mp hmem
  obtain ⟨rfl, rfl⟩ := Prod.mk.inj heq
  exact ⟨i, List.mem_zipIdx_iff_getElem?.mp hin, rfl⟩

theorem pickStep_nodup (valid : List Text) {picked : List (Text × Text)} (entry : MapEntry)
    (h : (picked.map Prod.fst).Nodup) : ((pickStep valid picked entry).map Prod.fst).Nodup := by
  rw [pickStep]
  cases entry.parts with
  | none => exact h
  | some part =>
    dsimp only
    split
    · next hnew =>
      rw [Bool.and_eq_true, Bool.not_eq_true'] at hnew
      rw [List.map_append, List.nodup_append]
      refine ⟨h, List.nodup_singleton _, fun a ha b hb heq => ?_⟩
      rw [heq, List.mem_singleton.mp hb] at ha
      exact absurd (List.contains_iff_mem.mpr ha) (by rw [hnew.2]; exact Bool.false_ne_true)
    · exact h

theorem parseMapReply_nodup {relevant : Option (List MapEntry)} {valid : List Text}
    {picked : List (Text × Text)} (h : parseMapReply relevant valid = some picked) :
    (picked.map Prod.fst).Nodup := by
  obtain ⟨entries, -, rfl⟩ := Option.map_eq_some_iff.mp h
  clear h
  induction entries using List.reverseRecOn with
  | nil => exact List.nodup_nil
  | append_singleton entries entry ih =>
    rw [List.foldl_append]
    exact pickStep_nodup valid entry ih

def pickedItems (batch : List Candidate) (picked : List (Text × Text)) :
    List (Candidate × Text) :=
  picked.filterMap fun (handle, note) =>
    ((handles batch).lookup handle).map fun candidate => (candidate, note)

theorem mem_pickedItems {batch : List Candidate} {picked : List (Text × Text)}
    {candidate : Candidate} (h : candidate ∈ (pickedItems batch picked).map Prod.fst) :
    candidate ∈ batch := by
  obtain ⟨⟨c, note⟩, hin, rfl⟩ := List.mem_map.mp h
  obtain ⟨⟨handle, text⟩, -, hfound⟩ := List.mem_filterMap.mp hin
  obtain ⟨found, hlookup, heq⟩ := Option.map_eq_some_iff.mp hfound
  obtain ⟨rfl, rfl⟩ := Prod.mk.inj heq
  obtain ⟨i, hi, -⟩ := mem_handles hlookup
  exact List.mem_of_getElem? hi

theorem pickedItems_nodup {batch : List Candidate} {picked : List (Text × Text)}
    (hbatch : (ids batch).Nodup) (hpicked : (picked.map Prod.fst).Nodup) :
    (ids ((pickedItems batch picked).map Prod.fst)).Nodup := by
  have heq : ids ((pickedItems batch picked).map Prod.fst) = (picked.map Prod.fst).filterMap
      fun handle => ((handles batch).lookup handle).map Candidate.articleId := by
    rw [ids, pickedItems, List.map_map, List.map_filterMap, List.filterMap_map]
    refine List.filterMap_congr fun item _ => ?_
    rw [Option.map_map]
    rfl
  rw [heq]
  refine hpicked.filterMap fun handle other id hid hother => ?_
  obtain ⟨c, hc, rfl⟩ := Option.map_eq_some_iff.mp hid
  obtain ⟨d, hd, hsame⟩ := Option.map_eq_some_iff.mp hother
  obtain ⟨i, hi, rfl⟩ := mem_handles hc
  obtain ⟨j, hj, rfl⟩ := mem_handles hd
  have hids : (ids batch)[i]? = (ids batch)[j]? := by
    rw [ids, List.getElem?_map, List.getElem?_map, hi, hj]
    exact congrArg some hsame.symm
  have hlt : i < (ids batch).length := by
    rw [ids, List.length_map]
    exact (List.getElem?_eq_some_iff.mp hi).1
  rw [(List.getElem?_inj hlt hbatch).mp hids]

/-- What the map step knows of the batches it has been through. -/
structure Mapped (done : List Candidate) (outcome : MapOutcome) : Prop where
  once : (ids outcome.selected).Nodup
  fromRead : ∀ candidate ∈ outcome.selected, candidate ∈ outcome.read
  read : outcome.read.Sublist done
  counted : outcome.read.length + outcome.skippedDocs = done.length

theorem mapped_start : Mapped [] MapOutcome.start where
  once := List.nodup_nil
  fromRead := fun _ h => absurd h List.not_mem_nil
  read := List.Sublist.refl _
  counted := rfl

theorem Mapped.call {done batch items : List Candidate} {outcome next : MapOutcome}
    (h : Mapped done outcome) (hnodup : (ids (done ++ batch)).Nodup)
    (hselected : next.selected = outcome.selected ++ items) (hitems : (ids items).Nodup)
    (hfrom : ∀ candidate ∈ items, candidate ∈ batch) (hread : next.read = outcome.read ++ batch)
    (hskipped : next.skippedDocs = outcome.skippedDocs) : Mapped (done ++ batch) next where
  once := by
    rw [hselected, ids, List.map_append, List.nodup_append]
    refine ⟨h.once, hitems, fun a ha b hb => ?_⟩
    obtain ⟨c, hc, rfl⟩ := List.mem_map.mp ha
    obtain ⟨d, hd, rfl⟩ := List.mem_map.mp hb
    rw [ids, List.map_append, List.nodup_append] at hnodup
    exact hnodup.2.2 _ (List.mem_map_of_mem (h.read.subset (h.fromRead c hc))) _
      (List.mem_map_of_mem (hfrom d hd))
  fromRead candidate hin := by
    rw [hselected] at hin
    rw [hread]
    exact List.mem_append.mpr ((List.mem_append.mp hin).imp (h.fromRead candidate) (hfrom candidate))
  read := hread ▸ h.read.append (List.Sublist.refl batch)
  counted := by
    have hcount := h.counted
    rw [hread, List.length_append, List.length_append]
    omega

/-- **What one batch keeps.** -/
theorem Mapped.step {done : List Candidate} {outcome : MapOutcome} (h : Mapped done outcome)
    (maxCalls : Nat) (replies : Nat → MapReply) {batch : List Candidate}
    (hnodup : (ids (done ++ batch)).Nodup) :
    Mapped (done ++ batch) (mapBatch maxCalls replies outcome batch) := by
  have hbatch : (ids batch).Nodup := by
    rw [ids, List.map_append] at hnodup
    exact (List.nodup_append.mp hnodup).2.1
  rw [mapBatch]
  split
  · have hcount := h.counted
    refine ⟨h.once, h.fromRead, h.read.trans (List.sublist_append_left done batch), ?_⟩
    rw [List.length_append]
    dsimp only
    omega
  · dsimp only
    cases replies outcome.calls with
    | failed => exact h.call hnodup rfl hbatch (fun _ hin => hin) rfl rfl
    | reply relevant =>
      cases hpicked : parseMapReply relevant ((handles batch).map Prod.fst) with
      | none =>
        dsimp only
        rw [hpicked]
        exact h.call hnodup rfl hbatch (fun _ hin => hin) rfl rfl
      | some picked =>
        dsimp only
        rw [hpicked]
        exact h.call hnodup rfl (pickedItems_nodup hbatch (parseMapReply_nodup hpicked))
          (fun _ => mem_pickedItems) rfl rfl

theorem mapped_mapCandidates {batches : List (List Candidate)} (maxCalls : Nat)
    (replies : Nat → MapReply) (hnodup : (ids batches.flatten).Nodup) :
    Mapped batches.flatten (mapCandidates batches maxCalls replies) := by
  induction batches using List.reverseRecOn with
  | nil => exact mapped_start
  | append_singleton batches batch ih =>
    rw [List.flatten_append, List.flatten_singleton] at hnodup ⊢
    have hbefore : (ids batches.flatten).Nodup := by
      rw [ids, List.map_append] at hnodup
      exact (List.nodup_append.mp hnodup).1
    rw [mapCandidates, List.foldl_append]
    exact (ih hbefore).step maxCalls replies hnodup

theorem length_le_of_ids {some all : List Candidate} (hnodup : (ids some).Nodup)
    (hin : ∀ candidate ∈ some, candidate ∈ all) : some.length ≤ all.length := by
  have hsub : ids some ⊆ ids all := by
    intro id hid
    obtain ⟨candidate, hcandidate, rfl⟩ := List.mem_map.mp hid
    exact List.mem_map_of_mem (hin candidate hcandidate)
  have hle := (List.subperm_of_subset hnodup hsub).length_le
  rwa [ids, List.length_map, ids, List.length_map] at hle

theorem Mapped.selected_le {done : List Candidate} {outcome : MapOutcome}
    (h : Mapped done outcome) : outcome.selected.length + outcome.skippedDocs ≤ done.length := by
  have hle := length_le_of_ids h.once h.fromRead
  have hcount := h.counted
  omega

theorem Mapped.read_eq {done : List Candidate} {outcome : MapOutcome} (h : Mapped done outcome)
    (hskipped : outcome.skippedDocs = 0) : outcome.read = done := by
  refine h.read.eq_of_length ?_
  have hcount := h.counted
  omega

/-- A document that can be cited. -/
def citable (chunks : Text → Option Chunk) (candidate : Candidate) : Bool :=
  (chunks candidate.articleId).isSome

theorem buildContextResults_digests (chosen : List Candidate) (chunks : Text → Option Chunk)
    (notes : List (Text × Text)) (language : Language) :
    (buildContextResults chosen chunks notes language).map Source.digest =
      (chosen.filter (citable chunks)).map Candidate.identity := by
  induction chosen using List.reverseRecOn with
  | nil => rfl
  | append_singleton chosen candidate ih =>
    rw [buildContextResults, List.foldl_append, List.foldl_cons, List.foldl_nil,
      List.filter_append, List.map_append, ← ih, buildContextResults]
    cases hchunk : chunks candidate.articleId with
    | none => rw [List.filter_cons_of_neg (by rw [citable, hchunk]; exact Bool.false_ne_true)]; simp
    | some chunk => rw [List.filter_cons_of_pos (by rw [citable, hchunk]; rfl)]; simp [sourceOf]

variable {r : Request}

theorem Request.finish_eq {selected : List Candidate} {notes : List (Text × Text)}
    {coverage : Coverage} {calls : Nat} {cacheHit : Bool} {read : List (Text × Text)} {ctx : Context}
    (h : r.finish selected notes coverage calls cacheHit read = some ctx) :
    ctx.coverage = { coverage with used := ctx.results.length } ∧
      ctx.results.length ≤ selected.length ∧
      ctx.read = read ++ ((selected.take (max 1 r.settings.finalDocs)).filter
        (citable r.chunks)).map Candidate.identity := by
  rw [Request.finish] at h
  split at h
  · cases h
  · obtain rfl := Option.some.inj h
    have hdigests := buildContextResults_digests (selected.take (max 1 r.settings.finalDocs))
      r.chunks notes r.language
    refine ⟨rfl, ?_, ?_⟩
    · have hlength := congrArg List.length hdigests
      rw [List.length_map, List.length_map] at hlength
      rw [hlength]
      exact (List.length_filter_le _ _).trans (List.length_take_le' _ _)
    · rw [← hdigests]

/-! ### The scope -/

theorem Document.candidate_id {document : Document} {candidate : Candidate}
    (h : document.candidate = some candidate) : candidate.articleId = document.articleId := by
  obtain ⟨digest, -, hdigest⟩ := Option.bind_eq_some_iff.mp h
  split at hdigest
  · rw [← Option.some.inj hdigest]
  · cases hdigest

theorem ids_filterMap_sublist (documents : List Document) :
    (ids (documents.filterMap Document.candidate)).Sublist (documents.map Document.articleId) := by
  induction documents with
  | nil => exact List.Sublist.refl _
  | cons document documents ih =>
    cases hcandidate : document.candidate with
    | none =>
      rw [List.filterMap_cons_none hcandidate]
      exact ih.cons _
    | some candidate =>
      rw [List.filterMap_cons_some hcandidate, ids, List.map_cons, List.map_cons,
        Document.candidate_id hcandidate]
      exact ih.cons_cons _

theorem digests_le : r.digests.length ≤ r.documents.all.length := List.length_filterMap_le _ _

theorem candidates_le : r.candidates.length ≤ r.digests.length := by
  rw [Request.candidates, List.length_take, List.length_insertionSort]
  exact Nat.min_le_right _ _

theorem candidates_nodup : (ids r.candidates).Nodup := by
  have hdigests : (ids r.digests).Nodup :=
    r.documents.distinct.sublist (ids_filterMap_sublist r.documents.all)
  have hperm : (ids (r.digests.insertionSort fun a b => r.before a b)).Perm (ids r.digests) :=
    (List.perm_insertionSort _ _).map _
  exact (hperm.nodup_iff.mpr hdigests).sublist ((List.take_sublist _ _).map _)

/-- Every document in scope has a digest, and they are all looked at. -/
def WholeScope (r : Request) : Prop :=
  (∀ document ∈ r.documents.all, document.candidate.isSome = true) ∧
    r.documents.all.length ≤ max 1 r.settings.maxDocs

theorem scope_complete_iff : r.scopeCoverage.incomplete = false ↔ WholeScope r := by
  have hle := digests_le (r := r)
  have hall : r.documents.all.length ≤ r.digests.length ↔
      ∀ document ∈ r.documents.all, document.candidate.isSome = true := by
    rw [Request.digests] at hle ⊢
    rw [← List.filterMap_length_eq_length]
    omega
  have hlength : r.candidates.length = min (max 1 r.settings.maxDocs) r.digests.length := by
    rw [Request.candidates, List.length_take, List.length_insertionSort]
  rw [Request.scopeCoverage, WholeScope, ← hall]
  simp only [Bool.or_eq_false_iff, decide_eq_false_iff_not]
  omega

theorem WholeScope.candidate (h : WholeScope r) {document : Document}
    (hdocument : document ∈ r.documents.all) :
    ∃ candidate ∈ r.candidates, document.candidate = some candidate := by
  obtain ⟨candidate, hcandidate⟩ := Option.isSome_iff_exists.mp (h.1 document hdocument)
  refine ⟨candidate, ?_, hcandidate⟩
  have hshort : (r.digests.insertionSort fun a b => r.before a b).length ≤
      max 1 r.settings.maxDocs := by
    rw [List.length_insertionSort]
    exact digests_le.trans h.2
  rw [Request.candidates, List.take_of_length_le hshort, List.mem_insertionSort]
  exact List.mem_filterMap.mpr ⟨document, hdocument, hcandidate⟩

/-! ### The cache -/

/-- What an entry was made from: each document once, all of its key's digests in a prompt. -/
structure CacheEntry.Sound (entry : CacheEntry) : Prop where
  once : (entry.selection.map Prod.fst).Nodup
  read : ∀ digest ∈ entry.key.docs, digest ∈ entry.read

theorem mem_key_docs {digest : Text × Text} :
    digest ∈ r.key.docs ↔ ∃ candidate ∈ r.candidates, candidate.identity = digest := by
  rw [Request.key]
  rw [List.mem_insertionSort, List.mem_map]

theorem mapped_request (r : Request) : Mapped r.candidates
    (mapCandidates (packBatches r.candidates r.settings.batchTokens) r.settings.maxCalls
      r.replies) := by
  have hflatten := packBatches_flatten r.candidates r.settings.batchTokens
  generalize packBatches r.candidates r.settings.batchTokens = batches at hflatten ⊢
  rw [← hflatten]
  refine mapped_mapCandidates r.settings.maxCalls r.replies ?_
  rw [hflatten]
  exact candidates_nodup

theorem gather_sound {cache : List CacheEntry} (h : ∀ entry ∈ cache, entry.Sound) (r : Request) :
    ∀ entry ∈ (gather cache r).2, entry.Sound := by
  rw [gather]
  split
  · exact h
  · cases r.hit cache with
    | some entry => exact h
    | none =>
      dsimp only
      split
      · exact h
      · dsimp only
        split
        · next hwhole =>
          refine List.forall_mem_cons.mpr ⟨⟨?_, fun digest hdigest => ?_⟩, h⟩
          · have hids := (mapped_request r).once
            rw [List.map_map]
            exact hids
          · rw [(mapped_request r).read_eq hwhole.1]
            exact List.mem_map.mpr (mem_key_docs.mp hdigest)
        · exact h

theorem cacheAfter_sound (requests : List Request) :
    ∀ entry ∈ cacheAfter requests, entry.Sound := by
  induction requests using List.reverseRecOn with
  | nil => exact fun _ h => absurd h List.not_mem_nil
  | append_singleton requests r ih =>
    rw [cacheAfter, List.foldl_append]
    exact gather_sound ih r

theorem Request.hit_key {cache : List CacheEntry} {entry : CacheEntry}
    (h : r.hit cache = some entry) : entry ∈ cache ∧ entry.key = r.key ∧
      entry.selection.map Prod.fst ⊆ ids r.candidates := by
  rw [Request.hit] at h
  split at h
  · obtain ⟨hfind, husable⟩ := Option.filter_eq_some_iff.mp h
    have hkey := List.find?_some hfind
    rw [Bool.and_eq_true, List.all_eq_true] at husable
    refine ⟨List.mem_of_find?_eq_some hfind, eq_of_beq hkey, fun id hid => ?_⟩
    obtain ⟨item, hitem, rfl⟩ := List.mem_map.mp hid
    obtain ⟨candidate, hcandidate, heq⟩ := List.any_eq_true.mp (husable.2 item hitem)
    exact eq_of_beq heq ▸ List.mem_map_of_mem hcandidate
  · cases h

theorem Coverage.skip_counts (coverage : Coverage) (skipped : Nat) :
    (coverage.skip skipped).considered = coverage.considered - skipped ∧
      (coverage.skip skipped).withDigest = coverage.withDigest ∧
        (coverage.skip skipped).total = coverage.total ∧
          ((coverage.skip skipped).incomplete = false →
            coverage.incomplete = false ∧ skipped = 0) := by
  by_cases hnone : skipped = 0
  · rw [hnone]
    exact ⟨rfl, rfl, rfl, fun h => ⟨h, rfl⟩⟩
  · rw [Coverage.skip, if_neg hnone]
    exact ⟨rfl, rfl, rfl, nofun⟩

theorem Coverage.fail_counts (coverage : Coverage) (failed : Nat) :
    (coverage.fail failed).considered = coverage.considered ∧
      (coverage.fail failed).withDigest = coverage.withDigest ∧
        (coverage.fail failed).total = coverage.total ∧
          ((coverage.fail failed).incomplete = false → coverage.incomplete = false) := by
  by_cases hnone : failed = 0
  · rw [Coverage.fail, if_pos hnone]
    exact ⟨rfl, rfl, rfl, id⟩
  · rw [Coverage.fail, if_neg hnone]
    exact ⟨rfl, rfl, rfl, nofun⟩

theorem Coverage.mapped_counts (coverage : Coverage) (outcome : MapOutcome) :
    (coverage.mapped outcome).considered = coverage.considered - outcome.skippedDocs ∧
      (coverage.mapped outcome).withDigest = coverage.withDigest ∧
        (coverage.mapped outcome).total = coverage.total ∧
          ((coverage.mapped outcome).incomplete = false →
            coverage.incomplete = false ∧ outcome.skippedDocs = 0) := by
  obtain ⟨hconsidered, hwith, htotal, hcomplete⟩ := coverage.skip_counts outcome.skippedDocs
  obtain ⟨hconsidered', hwith', htotal', hcomplete'⟩ :=
    (coverage.skip outcome.skippedDocs).fail_counts outcome.failedBatches
  exact ⟨hconsidered'.trans hconsidered, hwith'.trans hwith, htotal'.trans htotal,
    fun h => hcomplete (hcomplete' h)⟩

/-! ### What the coverage promises -/

/-- The counts are in order, and where nothing is said to be missing the digest of every document in
scope was in a prompt. -/
structure Honest (r : Request) (ctx : Context) : Prop where
  used_le : ctx.coverage.used ≤ ctx.coverage.considered
  considered_le : ctx.coverage.considered ≤ ctx.coverage.withDigest
  withDigest_le : ctx.coverage.withDigest ≤ ctx.coverage.total
  complete : ctx.coverage.incomplete = false → ∀ document ∈ r.documents.all,
    ∃ candidate, document.candidate = some candidate ∧ candidate.identity ∈ ctx.read

/-- The digests fit one batch, so that no call looks at them. -/
def OneBatch (r : Request) (cache : List CacheEntry) : Prop :=
  r.hit cache = none ∧ (packBatches r.candidates r.settings.batchTokens).length ≤ 1

def AllSources (r : Request) : Prop :=
  r.documents.all.length ≤ max 1 r.settings.finalDocs ∧
    ∀ document ∈ r.documents.all, (r.chunks document.articleId).isSome = true

theorem OneBatch.read_iff (hscope : WholeScope r) {read : List (Text × Text)}
    (hread : read = ((r.candidates.take (max 1 r.settings.finalDocs)).filter
      (citable r.chunks)).map Candidate.identity) :
    (∀ document ∈ r.documents.all, ∃ candidate, document.candidate = some candidate ∧
      candidate.identity ∈ read) ↔ AllSources r := by
  have hlength : r.candidates.length = r.documents.all.length := by
    have hdigests : r.digests.length = r.documents.all.length :=
      List.filterMap_length_eq_length.mpr hscope.1
    rw [Request.candidates, List.length_take, List.length_insertionSort, hdigests]
    exact Nat.min_eq_right hscope.2
  constructor
  · intro hall
    -- a digest that is read belongs to the candidate of its document
    have hshown : ∀ document ∈ r.documents.all, ∃ candidate ∈
        (r.candidates.take (max 1 r.settings.finalDocs)).filter (citable r.chunks),
          candidate.articleId = document.articleId := by
      intro document hdocument
      obtain ⟨candidate, hcandidate, hin⟩ := hall document hdocument
      obtain ⟨shown, hshown, heq⟩ := List.mem_map.mp (hread ▸ hin)
      exact ⟨shown, hshown, (congrArg Prod.fst heq).trans (Document.candidate_id hcandidate)⟩
    refine ⟨?_, fun document hdocument => ?_⟩
    · have hsub : r.documents.all.map Document.articleId ⊆
          ids (r.candidates.take (max 1 r.settings.finalDocs)) := by
        intro id hid
        obtain ⟨document, hdocument, rfl⟩ := List.mem_map.mp hid
        obtain ⟨candidate, hcandidate, heq⟩ := hshown document hdocument
        exact heq ▸ List.mem_map_of_mem (List.mem_of_mem_filter hcandidate)
      have hle := (List.subperm_of_subset r.documents.distinct hsub).length_le
      rw [ids, List.length_map, List.length_map, List.length_take] at hle
      omega
    · obtain ⟨candidate, hcandidate, heq⟩ := hshown document hdocument
      exact heq ▸ (List.mem_filter.mp hcandidate).2
  · rintro ⟨hfinal, hchunks⟩ document hdocument
    obtain ⟨candidate, hcandidate, hdigest⟩ := hscope.candidate hdocument
    refine ⟨candidate, hdigest, ?_⟩
    rw [hread, List.take_of_length_le (hlength ▸ hfinal)]
    refine List.mem_map_of_mem (List.mem_filter.mpr ⟨hcandidate, ?_⟩)
    rw [citable, Document.candidate_id hdigest]
    exact hchunks document hdocument

theorem honest_cached {cache : List CacheEntry} {r : Request} {ctx : Context} {entry : CacheEntry}
    {notes : List (Text × Text)} (hsound : ∀ entry ∈ cache, entry.Sound)
    (hhit : r.hit cache = some entry)
    (h : r.finish (entry.selection.filterMap fun item =>
        r.candidates.find? fun candidate => candidate.articleId == item.1)
      notes r.scopeCoverage 0 true entry.read = some ctx) : Honest r ctx := by
  obtain ⟨hcoverage, hused, hread⟩ := Request.finish_eq h
  obtain ⟨hentry, hkey, hids⟩ := r.hit_key hhit
  refine ⟨?_, ?_, ?_, fun hcomplete document hdocument => ?_⟩
  · have hle := (List.subperm_of_subset (hsound entry hentry).once hids).length_le
    rw [List.length_map, ids, List.length_map] at hle
    rw [hcoverage]
    exact hused.trans ((List.length_filterMap_le _ _).trans hle)
  · rw [hcoverage]
    exact candidates_le
  · rw [hcoverage]
    exact digests_le
  · rw [hcoverage] at hcomplete
    obtain ⟨candidate, hcandidate, hdigest⟩ :=
      (scope_complete_iff.mp hcomplete).candidate hdocument
    refine ⟨candidate, hdigest, ?_⟩
    rw [hread]
    refine List.mem_append_left _ ((hsound entry hentry).read _ ?_)
    rw [hkey]
    exact mem_key_docs.mpr ⟨candidate, hcandidate, rfl⟩

theorem honest_oneBatch_iff {r : Request} {ctx : Context}
    (h : r.finish r.candidates [] r.scopeCoverage 0 false [] = some ctx) :
    Honest r ctx ↔ (WholeScope r → AllSources r) := by
  obtain ⟨hcoverage, hused, hread⟩ := Request.finish_eq h
  have hcounts : ctx.coverage.used ≤ ctx.coverage.considered ∧
      ctx.coverage.considered ≤ ctx.coverage.withDigest ∧
        ctx.coverage.withDigest ≤ ctx.coverage.total := by
    rw [hcoverage]
    exact ⟨hused, candidates_le, digests_le⟩
  have hincomplete : ctx.coverage.incomplete = false ↔ WholeScope r := by
    rw [hcoverage]
    exact scope_complete_iff
  constructor
  · intro hhonest hscope
    exact (OneBatch.read_iff hscope hread).mp (hhonest.complete (hincomplete.mpr hscope))
  · intro hsources
    refine ⟨hcounts.1, hcounts.2.1, hcounts.2.2, fun hcomplete => ?_⟩
    have hscope := hincomplete.mp hcomplete
    exact (OneBatch.read_iff hscope hread).mpr (hsources hscope)

theorem honest_mapped {r : Request} {ctx : Context} {outcome : MapOutcome}
    (houtcome : outcome = mapCandidates (packBatches r.candidates r.settings.batchTokens)
      r.settings.maxCalls r.replies)
    (h : r.finish outcome.selected outcome.notes (r.scopeCoverage.mapped outcome) outcome.calls
      false (outcome.read.map Candidate.identity) = some ctx) : Honest r ctx := by
  subst houtcome
  obtain ⟨hcoverage, hused, hread⟩ := Request.finish_eq h
  have hmapped := mapped_request r
  obtain ⟨hconsidered, hwith, htotal, hmappedComplete⟩ := r.scopeCoverage.mapped_counts
    (mapCandidates (packBatches r.candidates r.settings.batchTokens) r.settings.maxCalls
      r.replies)
  refine ⟨?_, ?_, ?_, fun hcomplete document hdocument => ?_⟩
  · have hselected := hmapped.selected_le
    rw [hcoverage]
    rw [hconsidered]
    change ctx.results.length ≤ r.candidates.length - _
    omega
  · rw [hcoverage]
    rw [hconsidered, hwith]
    exact (Nat.sub_le _ _).trans candidates_le
  · rw [hcoverage]
    rw [hwith, htotal]
    exact digests_le
  · rw [hcoverage] at hcomplete
    obtain ⟨hscope, hskipped⟩ := hmappedComplete hcomplete
    obtain ⟨candidate, hcandidate, hdigest⟩ :=
      (scope_complete_iff.mp hscope).candidate hdocument
    refine ⟨candidate, hdigest, ?_⟩
    rw [hread, hmapped.read_eq hskipped]
    exact List.mem_append_left _ (List.mem_map_of_mem hcandidate)

/-- **When the coverage is honest.**  In every run of questions, whatever the calls come to and the
cache still holds: a question whose digests fit one batch must have a source for each document. -/
theorem honest_iff (requests : List Request) (r : Request) (ctx : Context)
    (h : (gather (cacheAfter requests) r).1 = some ctx) :
    Honest r ctx ↔ (OneBatch r (cacheAfter requests) → WholeScope r → AllSources r) := by
  rw [gather] at h
  split at h
  · cases h
  cases hhit : r.hit (cacheAfter requests) with
  | some entry =>
    rw [hhit] at h
    exact iff_of_true (honest_cached (cacheAfter_sound requests) hhit h)
      fun hone => absurd (hone.1.symm.trans hhit) nofun
  | none =>
    rw [hhit] at h
    dsimp only at h
    split at h
    · next hfew =>
      rw [honest_oneBatch_iff h]
      exact ⟨fun hhonest _ => hhonest, fun hroom => hroom ⟨hhit, hfew⟩⟩
    · next hmany => exact iff_of_true (honest_mapped rfl h) fun hone => absurd hone.2 hmany

def policy (articleId : Text) : Document where
  articleId := articleId
  title := ['T']
  department := ['H', 'R']
  docType := []
  digest := some ⟨true, ['S'], [], [], ['h']⟩
  chunk := some ⟨articleId, articleId, ['c']⟩

/-- A question about two documents, with room for `finalDocs` sources. -/
def twoPolicies (finalDocs : Nat) : Request where
  settings := ⟨['v'], ['v'], 120, 6000, 12, finalDocs⟩
  documents := ⟨[policy ['a'], policy ['b']], by decide⟩
  before _ _ := true
  question := ['q']
  docTypes := []
  departments := []
  topic := []
  language := .en
  replies _ := .failed
  cacheKept := false

/-- With a source for each, the coverage is honest. -/
theorem honest_two_sources :
    Honest (twoPolicies 25) ((gather (cacheAfter []) (twoPolicies 25)).1.get (by decide +kernel)) :=
  (honest_iff [] (twoPolicies 25) _ (Option.some_get _).symm).mpr
    fun _ _ => ⟨by decide, by decide⟩


/-- With one source for both, nothing is said to be missing and the second digest is in no prompt. -/
theorem cut_to_one_source : ∃ ctx, (gather [] (twoPolicies 1)).1 = some ctx ∧
    ctx.coverage.used = 1 ∧ ctx.coverage.considered = 2 ∧ ctx.coverage.incomplete = false ∧
      ctx.read = [(['a'], ['h'])] ∧ ¬Honest (twoPolicies 1) ctx := by
  refine ⟨(gather [] (twoPolicies 1)).1.get (by decide +kernel), (Option.some_get _).symm,
    by decide +kernel, by decide +kernel, by decide +kernel, by decide +kernel, fun h => ?_⟩
  obtain ⟨candidate, hcandidate, hin⟩ := h.complete (by decide +kernel) (policy ['b'])
    (List.mem_cons_of_mem _ (List.mem_cons_self ..))
  have hread : ((gather [] (twoPolicies 1)).1.get (by decide +kernel)).read = [(['a'], ['h'])] := by
    decide +kernel
  rw [hread, List.mem_singleton] at hin
  have hid := (Document.candidate_id hcandidate).symm.trans (congrArg Prod.fst hin)
  exact absurd hid (by decide)

end QnscKb.Corpus
