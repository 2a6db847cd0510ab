import Mathlib.Data.Prod.Lex
import QnscKb.Lib.Text

/-!
# Retrieval — Cross encoder

Which passages a cross encoder reads, and what its scores do to the ranked list
(`src/rag/cross_encoder.py`).  Scores are of linear orders: a model returns no `nan`.
-/

namespace QnscKb.CrossEncoder

/-! ### Candidates -/

section Candidates

variable {γ ι ρ σ : Type} [LinearOrder ρ]

/-- The passages the vector search ranked, with their positions, sorted by rank and position. -/
def byVector (id : γ → ι) (vectorRanks : ι → Option ρ) (ranked : List (γ × σ)) : List (ρ × ℕ) :=
  (ranked.zipIdx.filterMap fun entry => (vectorRanks (id entry.1.1)).map fun rank =>
    (rank, entry.2)).insertionSort fun a b => toLex a ≤ toLex b

/-- `select_candidates`; an absent or empty mapping ranks nothing. -/
def selectCandidates (id : γ → ι) (vectorRanks : ι → Option ρ) (ranked : List (γ × σ))
    (lexicalN vectorN : ℤ) : List ℕ :=
  let chosen := List.range (min (max lexicalN 0).toNat ranked.length)
  let added :=
    if 0 < vectorN then ((byVector id vectorRanks ranked).take vectorN.toNat).map Prod.snd else []
  (chosen ++ added).dedup.insertionSort (· ≤ ·)

theorem lt_of_mem_byVector {id : γ → ι} {vectorRanks : ι → Option ρ} {ranked : List (γ × σ)}
    {entry : ρ × ℕ} (h : entry ∈ byVector id vectorRanks ranked) : entry.2 < ranked.length := by
  rw [byVector, List.mem_insertionSort, List.mem_filterMap] at h
  obtain ⟨⟨item, i⟩, hitem, hentry⟩ := h
  obtain ⟨rank, -, rfl⟩ := Option.map_eq_some_iff.mp hentry
  exact List.snd_lt_of_mem_zipIdx hitem

/-- The candidates are positions of the list. -/
theorem selectCandidates_lt {id : γ → ι} {vectorRanks : ι → Option ρ} {ranked : List (γ × σ)}
    {lexicalN vectorN : ℤ} {i : ℕ}
    (h : i ∈ selectCandidates id vectorRanks ranked lexicalN vectorN) : i < ranked.length := by
  rw [selectCandidates, List.mem_insertionSort, List.mem_dedup] at h
  rcases List.mem_append.mp h with h | h
  · rw [List.mem_range] at h
    exact h.trans_le (Nat.min_le_right _ _)
  · split at h
    · obtain ⟨entry, hentry, rfl⟩ := List.mem_map.mp h
      exact lt_of_mem_byVector (List.mem_of_mem_take hentry)
    · cases h

/-- They are in order. -/
theorem selectCandidates_sorted (id : γ → ι) (vectorRanks : ι → Option ρ) (ranked : List (γ × σ))
    (lexicalN vectorN : ℤ) :
    (selectCandidates id vectorRanks ranked lexicalN vectorN).Pairwise (· < ·) := by
  have hnodup := (List.perm_insertionSort (· ≤ ·) _).nodup_iff.mpr (List.nodup_dedup
    (List.range (min (max lexicalN 0).toNat ranked.length) ++
      if 0 < vectorN then ((byVector id vectorRanks ranked).take vectorN.toNat).map Prod.snd
      else []))
  exact (List.pairwise_insertionSort (· ≤ ·) _).imp₂ (fun _ _ hle hne => lt_of_le_of_ne hle hne)
    hnodup

end Candidates

/-! ### Promotion -/

section Promotion

variable {γ σ π : Type} [LinearOrder σ] [LinearOrder π]

/-- What `promote` raises. -/
inductive Failure where
  | valueError (message : Text)
  | indexError

/-- One candidate comes before another: its score is better, or the same and its position lower. -/
def Before (a b : π × ℕ) : Prop := b.1 < a.1 ∨ a.1 = b.1 ∧ a.2 ≤ b.2

instance : DecidableRel (Before (π := π)) := fun _ _ => inferInstanceAs (Decidable (_ ∨ _))

def scored (candidates : List ℕ) (crossScores : List π) : List (π × ℕ) :=
  (crossScores.zip candidates).insertionSort Before

/-- An item of `head`. -/
def headItem (ranked : List (γ × σ)) (assistTopK : ℤ) (assistFloor : σ)
    (assistMinProbability : π) (entry : (π × ℕ) × ℕ) : Except Failure (γ × σ) :=
  match ranked[entry.1.2]? with
  | none => .error .indexError
  | some (chunk, lexical) =>
    if (entry.2 : ℤ) < assistTopK ∧ assistMinProbability ≤ entry.1.1 then
      .ok (chunk, max lexical assistFloor)
    else .ok (chunk, lexical)

/-- The passages that were no candidates. -/
def tail (ranked : List (γ × σ)) (candidates : List ℕ) : List (γ × σ) :=
  (ranked.zipIdx.filter fun entry => decide (entry.2 ∉ candidates)).map Prod.fst

def mismatch (candidates scores : ℕ) : Text :=
  "promote got ".toList ++ Nat.toDigits 10 candidates ++ " candidates but ".toList ++
    Nat.toDigits 10 scores ++ " scores".toList

def promote (ranked : List (γ × σ)) (candidates : List ℕ) (crossScores : List π) (assistTopK : ℤ)
    (assistFloor : σ) (assistMinProbability : π) : Except Failure (List (γ × σ)) :=
  if candidates.length ≠ crossScores.length then
    .error (.valueError (mismatch candidates.length crossScores.length))
  else do
    let head ← (scored candidates crossScores).zipIdx.mapM
      (headItem ranked assistTopK assistFloor assistMinProbability)
    return head ++ tail ranked candidates

/-! ### What promotion keeps -/

/-- How many candidates the model puts before one. -/
def ahead (scores : List (π × ℕ)) (own : π × ℕ) : ℕ :=
  scores.countP fun other => decide (¬ Before own other)

/-- What becomes of the passage at a position: its score rises at most, and rises only where fewer
than `topK` candidates are ahead of it. -/
def Rescored (ranked : List (γ × σ)) (scores : List (π × ℕ)) (topK : ℤ) (i : ℕ) (item : γ × σ) :
    Prop :=
  ∃ original, ranked[i]? = some original ∧ item.1 = original.1 ∧ original.2 ≤ item.2 ∧
    (item.2 ≠ original.2 → ∃ score, (score, i) ∈ scores ∧ (ahead scores (score, i) : ℤ) < topK)

/-- The passages of the ranked list, each once and rescored; those that were no candidates in their
order. -/
structure Reranks (ranked : List (γ × σ)) (candidates : List ℕ) (crossScores : List π) (topK : ℤ)
    (result : List (γ × σ)) : Prop where
  exists_order : ∃ order : List ℕ, order.Perm (List.range ranked.length) ∧
    List.Forall₂ (Rescored ranked (crossScores.zip candidates) topK) order result ∧
    (order.filter fun i => decide (i ∉ candidates)).Pairwise (· < ·)

theorem Before.total (a b : π × ℕ) : Before a b ∨ Before b a := by
  rcases lt_trichotomy a.1 b.1 with hlt | heq | hlt
  · exact .inr (.inl hlt)
  · rcases Nat.le_total a.2 b.2 with hle | hle
    · exact .inl (.inr ⟨heq, hle⟩)
    · exact .inr (.inr ⟨heq.symm, hle⟩)
  · exact .inl (.inl hlt)

theorem Before.trans {a b c : π × ℕ} (hab : Before a b) (hbc : Before b c) : Before a c := by
  rcases hab with hab | ⟨hab, hle⟩
  · rcases hbc with hbc | ⟨hbc, -⟩
    · exact .inl (hbc.trans hab)
    · exact .inl (hbc ▸ hab)
  · rcases hbc with hbc | ⟨hbc, hle'⟩
    · exact .inl (hab ▸ hbc)
    · exact .inr ⟨hab.trans hbc, hle.trans hle'⟩

instance : Std.Total (Before (π := π)) := ⟨Before.total⟩
instance : IsTrans (π × ℕ) Before := ⟨fun _ _ _ => Before.trans⟩

variable {candidates : List ℕ} {crossScores : List π}

/-- What comes early in the model's order has few candidates ahead of it. -/
theorem ahead_le_position {own : π × ℕ} {p : ℕ}
    (h : (scored candidates crossScores)[p]? = some own) :
    ahead (crossScores.zip candidates) own ≤ p := by
  have hsorted := List.pairwise_insertionSort Before (crossScores.zip candidates)
  have hperm := List.perm_insertionSort Before (crossScores.zip candidates)
  rw [← scored] at hsorted hperm
  obtain ⟨hp, hown⟩ := List.getElem?_eq_some_iff.mp h
  have hsplit : scored candidates crossScores = (scored candidates crossScores).take p ++
      own :: (scored candidates crossScores).drop (p + 1) := by
    rw [← hown, ← List.drop_eq_getElem_cons hp, List.take_append_drop]
  rw [hsplit] at hsorted
  -- nothing behind a candidate in the model's order is ahead of it
  have hbehind := (List.pairwise_cons.mp (List.pairwise_append.mp hsorted).2.1).1
  have hnone : (own :: (scored candidates crossScores).drop (p + 1)).countP
      (fun other => decide (¬ Before own other)) = 0 := by
    rw [List.countP_eq_zero]
    intro other hother
    rw [decide_eq_true_eq, not_not]
    rcases List.mem_cons.mp hother with rfl | hother
    · exact .inr ⟨rfl, Nat.le_refl _⟩
    · exact hbehind other hother
  rw [ahead, ← hperm.countP_eq, hsplit, List.countP_append, hnone]
  exact List.countP_le_length.trans (List.length_take_le _ _)

theorem mapM_forall₂ {ε α β : Type} {f : α → Except ε β} {R : α → β → Prop} {l : List α}
    (h : ∀ x ∈ l, ∃ y, f x = .ok y ∧ R x y) : ∃ ys, l.mapM f = .ok ys ∧ List.Forall₂ R l ys := by
  induction l with
  | nil => exact ⟨[], rfl, .nil⟩
  | cons x l ih =>
    obtain ⟨y, hy, hR⟩ := h x List.mem_cons_self
    obtain ⟨ys, hys, hall⟩ := ih fun z hz => h z (List.mem_cons_of_mem x hz)
    refine ⟨y :: ys, ?_, .cons hR hall⟩
    rw [List.mapM_cons, hy, hys]
    rfl

theorem rescored_headItem {ranked : List (γ × σ)} (topK : ℤ) (floor : σ) (minProbability : π)
    (hin : ∀ i ∈ candidates, i < ranked.length) {entry : (π × ℕ) × ℕ}
    (hentry : entry ∈ (scored candidates crossScores).zipIdx) :
    ∃ item, headItem ranked topK floor minProbability entry = .ok item ∧
      Rescored ranked (crossScores.zip candidates) topK entry.1.2 item := by
  obtain ⟨own, p⟩ := entry
  have hplace := List.mem_zipIdx_iff_getElem?.mp hentry
  have hown : own ∈ crossScores.zip candidates :=
    (List.mem_insertionSort Before).mp (List.mem_of_getElem? hplace)
  have hlt := hin own.2 (List.of_mem_zip hown).2
  have hoccurs : ranked[own.2]? = some ranked[own.2] := List.getElem?_eq_getElem hlt
  rw [headItem, hoccurs]
  dsimp only
  split
  · rename_i hraised
    refine ⟨_, rfl, _, hoccurs, rfl, le_max_left _ _, fun _ => ⟨own.1, hown, ?_⟩⟩
    exact (Int.ofNat_le.mpr (ahead_le_position hplace)).trans_lt hraised.1
  · exact ⟨_, rfl, _, hoccurs, rfl, le_refl _, fun hne => absurd rfl hne⟩

theorem forall₂_tail (ranked : List (γ × σ)) (candidates : List ℕ) (scores : List (π × ℕ))
    (topK : ℤ) : List.Forall₂ (Rescored ranked scores topK)
      ((List.range ranked.length).filter fun i => decide (i ∉ candidates))
      (tail ranked candidates) := by
  have hrange : (List.range ranked.length).filter (fun i => decide (i ∉ candidates)) =
      (ranked.zipIdx.filter fun entry => decide (entry.2 ∉ candidates)).map Prod.snd := by
    rw [List.range_eq_range', ← List.zipIdx_map_snd 0 ranked, List.filter_map]
    rfl
  rw [hrange, tail, List.forall₂_map_left_iff, List.forall₂_map_right_iff, List.forall₂_same]
  intro entry hentry
  have hplace := List.mem_zipIdx_iff_getElem?.mp (List.mem_filter.mp hentry).1
  exact ⟨entry.1, hplace, rfl, le_refl _, fun hne => absurd rfl hne⟩

theorem perm_range {n : ℕ} (hlength : candidates.length = crossScores.length)
    (hnodup : candidates.Nodup) (hin : ∀ i ∈ candidates, i < n) :
    ((scored candidates crossScores).map Prod.snd ++
      (List.range n).filter fun i => decide (i ∉ candidates)).Perm (List.range n) := by
  have hscored : ((scored candidates crossScores).map Prod.snd).Perm candidates := by
    refine ((List.perm_insertionSort Before _).map Prod.snd).trans ?_
    rw [List.map_snd_zip hlength.le]
  have hcandidates : candidates.Perm
      ((List.range n).filter fun i => decide (i ∈ candidates)) := by
    refine (List.perm_ext_iff_of_nodup hnodup (List.nodup_range.filter _)).mpr fun i => ?_
    rw [List.mem_filter, List.mem_range, decide_eq_true_eq]
    exact ⟨fun h => ⟨hin i h, h⟩, And.right⟩
  refine ((hscored.trans hcandidates).append_right _).trans ?_
  have hsplit := List.filter_append_perm (fun i => decide (i ∈ candidates)) (List.range n)
  simpa only [decide_not] using hsplit

theorem promote_reranks {ranked : List (γ × σ)} (hsorted : candidates.Pairwise (· < ·))
    (hin : ∀ i ∈ candidates, i < ranked.length) (hlength : candidates.length = crossScores.length)
    (topK : ℤ) (floor : σ) (minProbability : π) :
    ∃ result, promote ranked candidates crossScores topK floor minProbability = .ok result ∧
      Reranks ranked candidates crossScores topK result := by
  obtain ⟨head, hhead, hrescored⟩ := mapM_forall₂ fun entry hentry =>
    rescored_headItem topK floor minProbability hin hentry
  refine ⟨head ++ tail ranked candidates, ?_, ⟨(scored candidates crossScores).map Prod.snd ++
    (List.range ranked.length).filter fun i => decide (i ∉ candidates),
    perm_range hlength hsorted.nodup hin, ?_, ?_⟩⟩
  · rw [promote, if_neg (not_not_intro hlength), hhead]
    rfl
  · refine List.rel_append ?_ (forall₂_tail ranked candidates _ topK)
    have hplaces : (scored candidates crossScores).map Prod.snd =
        (scored candidates crossScores).zipIdx.map fun entry => entry.1.2 := by
      conv_lhs => rw [← List.zipIdx_map_fst 0 (scored candidates crossScores), List.map_map]
      rfl
    rw [hplaces, List.forall₂_map_left_iff]
    exact hrescored
  · -- of the positions only the others' are left
    have hnone : ((scored candidates crossScores).map Prod.snd).filter
        (fun i => decide (i ∉ candidates)) = [] := by
      rw [List.filter_eq_nil_iff]
      intro i hi
      obtain ⟨own, hown, rfl⟩ := List.mem_map.mp hi
      have hzip := (List.mem_insertionSort Before).mp hown
      simpa using (List.of_mem_zip hzip).2
    rw [List.filter_append, hnone, List.filter_filter]
    exact List.pairwise_lt_range.filter _

/-- **Reranking loses no passage** and lowers no score, whatever the model returns: a list of scores
of another length is refused. -/
theorem rerank_safe {ι ρ : Type} [LinearOrder ρ] (id : γ → ι) (vectorRanks : ι → Option ρ)
    (ranked : List (γ × σ)) (lexicalN vectorN : ℤ) (crossScores : List π) (topK : ℤ) (floor : σ)
    (minProbability : π) :
    let candidates := selectCandidates id vectorRanks ranked lexicalN vectorN
    (candidates.Pairwise (· < ·) ∧ ∀ i ∈ candidates, i < ranked.length) ∧
      if candidates.length = crossScores.length then
        ∃ result, promote ranked candidates crossScores topK floor minProbability = .ok result ∧
          Reranks ranked candidates crossScores topK result
      else promote ranked candidates crossScores topK floor minProbability =
        .error (.valueError (mismatch candidates.length crossScores.length)) := by
  have hsorted := selectCandidates_sorted id vectorRanks ranked lexicalN vectorN
  have hin : ∀ i ∈ selectCandidates id vectorRanks ranked lexicalN vectorN, i < ranked.length :=
    fun i => selectCandidates_lt
  refine ⟨⟨hsorted, hin⟩, ?_⟩
  split
  · rename_i hlength
    exact promote_reranks hsorted hin hlength topK floor minProbability
  · rename_i hlength
    rw [promote, if_pos hlength]

end Promotion

end QnscKb.CrossEncoder
