import Mathlib.Tactic.Linarith
import Mathlib.Tactic.NormNum
import QnscKb.Lib.Words
import QnscKb.Retrieval.Rerank

/-!
# Retrieval — Rescaled

What becomes of a ranking when the terms no candidate holds are dropped (`prepare_query`).  They
divide every score alike, but what is added for a quotation and a definition, and taken for
references, is not divided.
-/

namespace QnscKb.Rerank

open Rankings (ranking)
open Tokens (tokens tokens_append_sep)

variable (U : Letters) (S : Settings)

/-! ### Two preparations -/

/-- The question against its candidates, nothing named and no vector search. -/
def pooled (query : Text) (pool : List Chunk) : PreparedQuery :=
  prepareQueryForChunks U S query pool [] fun _ => none

/-- The question with all its terms: `prepare_query(query)`. -/
def whole (query : Text) : PreparedQuery := prepareQuery U S query none [] none 0 fun _ => none

def findable (pool : List Chunk) : Finset Text := corpusTerms U (pool.map chunkPassage)

def folded (chunk : Chunk) : Text := foldDiacritics U (chunkPassage chunk)

def held (chunk : Chunk) : Finset Text := (passageTokens U (chunkPassage chunk)).toFinset

/-- How many terms of the question a candidate holds. -/
def matched (query : Text) (chunk : Chunk) : ℕ := (queryTerms U query ∩ held U chunk).card

def extra (query : Text) (chunk : Chunk) : ℚ :=
  bonus U (normalizeQuery U query) (isDefinitionQuery U query) (folded U chunk)

def divisor (terms : Finset Text) : ℕ := max terms.card 1

/-- The terms scored against the candidates. -/
def pooledTerms (query : Text) (pool : List Chunk) : Finset Text :=
  scoredTerms U query (some (findable U pool))

variable {U S}

theorem identifierWeights_pooled (query : Text) (pool : List Chunk) :
    (pooled U S query pool).identifierWeights = [] := by
  simp [pooled, prepareQueryForChunks, prepareQuery, identifierWeights]

theorem identifierWeights_whole (query : Text) : (whole U S query).identifierWeights = [] := by
  simp [whole, prepareQuery]

theorem retrievalScore_plain {prepared : PreparedQuery} (hweights : prepared.identifierWeights = [])
    (hranks : ∀ id, prepared.vectorRanks id = none) (chunk : Chunk) :
    retrievalScore U S prepared chunk =
      ((prepared.terms ∩ held U chunk).card : ℚ) / (divisor prepared.terms : ℕ) +
        bonus U prepared.normalized prepared.isDefinition (folded U chunk) := by
  simp only [retrievalScore, hranks, scorePreparedText, coverage, hweights]
  rfl

theorem held_subset {pool : List Chunk} {chunk : Chunk} (h : chunk ∈ pool) :
    held U chunk ⊆ findable U pool := by
  intro word hword
  rw [held, List.mem_toFinset] at hword
  rw [findable, corpusTerms, List.mem_toFinset, List.mem_flatMap]
  exact ⟨chunkPassage chunk, List.mem_map_of_mem h, hword⟩

theorem pooledTerms_inter {pool : List Chunk} {chunk : Chunk} (h : chunk ∈ pool) (query : Text) :
    pooledTerms U query pool ∩ held U chunk = queryTerms U query ∩ held U chunk := by
  rw [pooledTerms, scoredTerms]
  split
  -- all terms are kept
  · rfl
  · rw [Finset.inter_assoc, Finset.inter_eq_right.mpr (held_subset h)]

/-- **Dropping terms changes the divisor alone.** -/
theorem coverage_pooled {pool : List Chunk} {chunk : Chunk} (h : chunk ∈ pool) (query : Text) :
    retrievalScore U S (pooled U S query pool) chunk =
      (matched U query chunk : ℚ) / (divisor (pooledTerms U query pool) : ℕ) +
        extra U query chunk := by
  rw [retrievalScore_plain (identifierWeights_pooled query pool) fun _ => rfl, matched,
    ← pooledTerms_inter h]
  rfl

theorem coverage_whole (query : Text) (chunk : Chunk) :
    retrievalScore U S (whole U S query) chunk =
      (matched U query chunk : ℚ) / (divisor (queryTerms U query) : ℕ) + extra U query chunk := by
  rw [retrievalScore_plain (identifierWeights_whole query) fun _ => rfl]
  rfl

/-! ### The ranking -/

theorem divisor_pos (terms : Finset Text) : (0 : ℚ) < (divisor terms : ℕ) := by
  have hone : 1 ≤ divisor terms := Nat.le_max_right _ _
  exact_mod_cast hone

theorem score_le_iff {k : ℚ} (hk : 0 < k) (m m' b b' : ℚ) :
    m' / k + b' ≤ m / k + b ↔ k * (b' - b) ≤ m - m' := by
  have hdiff : (m - m') / k = m / k - m' / k := sub_div m m' k
  rw [mul_comm, ← le_div_iff₀ hk]
  constructor
  · intro h
    linarith
  · intro h
    linarith

/-- The lead in terms of one candidate over another outweighs what is added to the other. -/
def Outweighs (query : Text) (k : ℕ) (a b : Chunk) : Prop :=
  (k : ℚ) * (extra U query b - extra U query a) ≤ (matched U query a : ℚ) - matched U query b

theorem scoreAt_getElem {prepared : PreparedQuery} {pool : List Chunk} {i : ℕ}
    (h : i < pool.length) :
    scoreAt U S prepared pool i = retrievalScore U S prepared pool[i] := by
  rw [scoreAt, List.getElem?_eq_getElem h]
  rfl

theorem pooled_le_iff {query : Text} {pool : List Chunk} {a b : Chunk} (ha : a ∈ pool)
    (hb : b ∈ pool) :
    retrievalScore U S (pooled U S query pool) b ≤ retrievalScore U S (pooled U S query pool) a ↔
      Outweighs (U := U) query (divisor (pooledTerms U query pool)) a b := by
  rw [coverage_pooled ha, coverage_pooled hb, score_le_iff (divisor_pos _), Outweighs]

theorem whole_le_iff {query : Text} {a b : Chunk} :
    retrievalScore U S (whole U S query) b ≤ retrievalScore U S (whole U S query) a ↔
      Outweighs (U := U) query (divisor (queryTerms U query)) a b := by
  rw [coverage_whole, coverage_whole, score_le_iff (divisor_pos _), Outweighs]

/-- **The order of the candidates** is that of all terms when the leads in terms weigh alike by
both divisors. -/
theorem order_iff {query : Text} {pool : List Chunk} :
    (∀ limit, (rerankChunksWithScores U S query pool limit [] fun _ => none).map Prod.fst =
        (rerankPrepared U S (whole U S query) pool limit).map Prod.fst) ↔
      pool.Pairwise fun a b =>
        (Outweighs (U := U) query (divisor (pooledTerms U query pool)) a b ↔
          Outweighs (U := U) query (divisor (queryTerms U query)) a b) := by
  have hranking := Rankings.take_ranking_eq_iff (n := pool.length)
    (f := scoreAt U S (pooled U S query pool) pool) (g := scoreAt U S (whole U S query) pool)
  rw [Rankings.ranking_eq_iff] at hranking
  simp only [rerankChunksWithScores, places_rerankPrepared]
  refine hranking.trans ?_
  rw [List.pairwise_iff_getElem]
  constructor
  · intro h i j hi hj hij
    have hcompare := h j hj i hij
    rwa [scoreAt_getElem hi, scoreAt_getElem hj, scoreAt_getElem hi, scoreAt_getElem hj,
      pooled_le_iff (List.getElem_mem hi) (List.getElem_mem hj), whole_le_iff] at hcompare
  · intro h j hj i hij
    have hi : i < pool.length := hij.trans hj
    rw [scoreAt_getElem hi, scoreAt_getElem hj, scoreAt_getElem hi, scoreAt_getElem hj,
      pooled_le_iff (List.getElem_mem hi) (List.getElem_mem hj), whole_le_iff]
    exact h i j hi hj hij

/-! ### Words appended -/

def appended (query added : Text) : Text := query ++ ' ' :: added

theorem signals_appended (query added : Text) :
    signals U (appended query added) = signals U query ++ signals U added := by
  have hblank : tokenChar U ' ' = false := by
    rw [tokenChar, U.word_space]
    rfl
  rw [signals, appended, U.lower_append_space, tokens_append_sep hblank, List.filterMap_append]
  rfl

theorem queryTerms_appended (query added : Text) :
    queryTerms U (appended query added) = queryTerms U query ∪ queryTerms U added := by
  rw [queryTerms, normalizeQuery, signals_appended, Text.words_join_append, List.toFinset_append]
  rfl

/-- Words of a question that no candidate holds, no stopword or marker of a definition among
them. -/
structure Fresh (U : Letters) (added : Text) (pool : List Chunk) : Prop where
  absent : Disjoint (queryTerms U added) (findable U pool)
  content : ∀ raw ∈ tokens (tokenChar U) (U.lower added),
    isStopword U raw (foldDiacritics U raw) = false
  plain : isDefinitionQuery U added = false

variable {query added : Text} {pool : List Chunk} {chunk : Chunk}

theorem inter_appended (h : Fresh U added pool) :
    queryTerms U (appended query added) ∩ findable U pool =
      queryTerms U query ∩ findable U pool := by
  rw [queryTerms_appended, Finset.union_inter_distrib_right,
    Finset.disjoint_iff_inter_eq_empty.mp h.absent, Finset.union_empty]

theorem matched_appended (h : Fresh U added pool) (hchunk : chunk ∈ pool) :
    matched U (appended query added) chunk = matched U query chunk := by
  have habsent : Disjoint (queryTerms U added) (held U chunk) :=
    h.absent.mono_right (held_subset hchunk)
  rw [matched, queryTerms_appended, Finset.union_inter_distrib_right,
    Finset.disjoint_iff_inter_eq_empty.mp habsent, Finset.union_empty]
  rfl

theorem matched_of_unfindable (h : queryTerms U query ∩ findable U pool = ∅)
    (hchunk : chunk ∈ pool) : matched U query chunk = 0 := by
  rw [matched, Finset.card_eq_zero, ← Finset.subset_empty, ← h]
  exact Finset.inter_subset_inter_left (held_subset hchunk)

theorem coverage_appended (h : Fresh U added pool) (hchunk : chunk ∈ pool) :
    (matched U (appended query added) chunk : ℚ) /
        (divisor (pooledTerms U (appended query added) pool) : ℕ) =
      (matched U query chunk : ℚ) / (divisor (pooledTerms U query pool) : ℕ) := by
  rw [matched_appended h hchunk]
  -- terms none of which is held count nothing, by whatever divisor
  by_cases hnone : queryTerms U query ∩ findable U pool = ∅
  · rw [matched_of_unfindable hnone hchunk, Nat.cast_zero, zero_div, zero_div]
  · rw [pooledTerms, scoredTerms, inter_appended h, if_neg hnone, pooledTerms, scoredTerms,
      if_neg hnone]

/-! ### What is added -/

/-- Asking for a definition makes no difference to a candidate: it gives one and is a reference, or
is neither, and holds fewer than two links. -/
def Indifferent (passage : Text) : Prop :=
  defines U passage = refers U passage ∧ urlCount passage < 2

theorem kindBonus_eq_iff {passage : Text} :
    kindBonus U true passage = kindBonus U false passage ↔ Indifferent (U := U) passage := by
  rw [Indifferent, kindBonus, kindBonus, ← not_le]
  by_cases hurls : 2 ≤ urlCount passage
  · rw [if_pos hurls]
    cases defines U passage <;> cases refers U passage <;> norm_num [hurls]
  · rw [if_neg hurls]
    cases defines U passage <;> cases refers U passage <;> norm_num [hurls]

theorem kindBonus_quarters (isDefinition : Bool) (passage : Text) :
    ∃ z : ℤ, kindBonus U isDefinition passage = z / 4 := by
  rw [kindBonus]
  split
  · refine ⟨(if defines U passage then 3 else 0) - (if refers U passage then 4 else 0) -
      (if 2 ≤ urlCount passage then 2 else 0), ?_⟩
    split_ifs <;> norm_num
  · refine ⟨-(if refers U passage then 1 else 0), ?_⟩
    split_ifs <;> norm_num

theorem kindBonus_inj {d d' : Bool} {passage : Text} :
    kindBonus U d' passage = kindBonus U d passage ↔ d' = d ∨ Indifferent (U := U) passage := by
  cases d <;> cases d'
  · simp
  · simpa using kindBonus_eq_iff
  · rw [eq_comm, kindBonus_eq_iff]
    simp
  · simp

theorem not_quarters (z z' : ℤ) : (7 / 20 + z / 4 : ℚ) ≠ z' / 4 := by
  intro h
  have hclear : ((7 + 5 * z : ℤ) : ℚ) = (5 * z' : ℤ) := by
    push_cast
    linarith
  have hint : 7 + 5 * z = 5 * z' := by exact_mod_cast hclear
  omega

/-- **What is added is the same** when the same is quoted, and the question asks for a definition
as before or the passage is indifferent to it. -/
theorem bonus_eq_iff {n n' : Text} {d d' : Bool} {passage : Text} :
    bonus U n' d' passage = bonus U n d passage ↔
      quotes U n' passage = quotes U n passage ∧ (d' = d ∨ Indifferent (U := U) passage) := by
  obtain ⟨z, hz⟩ := kindBonus_quarters (U := U) d passage
  obtain ⟨z', hz'⟩ := kindBonus_quarters (U := U) d' passage
  rw [← kindBonus_inj, bonus, bonus]
  cases quotes U n' passage <;> cases quotes U n passage
  · simp
  -- a quotation on one side alone
  · rw [hz, hz']
    simpa using (not_quarters z z').symm
  · rw [hz, hz']
    simpa using not_quarters z' z
  · simp

/-- **A score stays** when words are appended that no candidate holds, when what is added does. -/
theorem score_appended_iff (h : Fresh U added pool) (hchunk : chunk ∈ pool) :
    retrievalScore U S (pooled U S (appended query added) pool) chunk =
        retrievalScore U S (pooled U S query pool) chunk ↔
      quotes U (normalizeQuery U (appended query added)) (folded U chunk) =
          quotes U (normalizeQuery U query) (folded U chunk) ∧
        (isDefinitionQuery U (appended query added) = isDefinitionQuery U query ∨
          Indifferent (U := U) (folded U chunk)) := by
  rw [coverage_pooled hchunk, coverage_pooled hchunk, coverage_appended h hchunk, add_right_inj,
    extra, extra, bonus_eq_iff]

/-- Dropping the terms no candidate holds keeps the order that all terms give, and words appended
that none of them holds change no score. -/
structure Rescaled (U : Letters) (S : Settings) (query added : Text) (pool : List Chunk) :
    Prop where
  order : ∀ limit, (rerankChunksWithScores U S query pool limit [] fun _ => none).map Prod.fst =
    (rerankPrepared U S (whole U S query) pool limit).map Prod.fst
  scores : Fresh U added pool → ∀ chunk ∈ pool,
    retrievalScore U S (pooled U S (appended query added) pool) chunk =
      retrievalScore U S (pooled U S query pool) chunk

/-- **The scores are rescaled** exactly when every lead in terms weighs against what is added alike
by the terms that are found and by all terms, and the words appended change neither what a candidate
quotes nor whether a definition is asked for. -/
theorem rescaled_iff (U : Letters) (S : Settings) (query added : Text) (pool : List Chunk) :
    Rescaled U S query added pool ↔
      (pool.Pairwise fun a b =>
        (Outweighs (U := U) query (divisor (pooledTerms U query pool)) a b ↔
          Outweighs (U := U) query (divisor (queryTerms U query)) a b)) ∧
      (Fresh U added pool → ∀ chunk ∈ pool,
        quotes U (normalizeQuery U (appended query added)) (folded U chunk) =
            quotes U (normalizeQuery U query) (folded U chunk) ∧
          (isDefinitionQuery U (appended query added) = isDefinitionQuery U query ∨
            Indifferent (U := U) (folded U chunk))) := by
  rw [← order_iff (S := S)]
  constructor
  · intro h
    exact ⟨h.order, fun hfresh chunk hchunk =>
      (score_appended_iff hfresh hchunk).mp (h.scores hfresh chunk hchunk)⟩
  · rintro ⟨horder, hscores⟩
    exact ⟨horder, fun hfresh chunk hchunk =>
      (score_appended_iff hfresh hchunk).mpr (hscores hfresh chunk hchunk)⟩

def asciiLetters : Letters where
  toUnicode := Ask.ascii
  lower t := t.map Char.toLower
  nfd c := [c]
  mark _ := false
  lower_append_space s t := by rw [List.map_append, List.map_cons]; rfl
  word_space := by decide

/-- The settings as they ship; nothing is named here, so no logarithm is read. -/
def shipped : Settings := ⟨12, 5, 2 / 5, fun _ _ => 1⟩

def passage (id : ℕ) (text : Text) : Chunk := ⟨id, text, none, []⟩

/-- A passage of two of four terms stands above one that only gives a definition when the other two
are dropped, and below it when they count; a word appended that no passage holds takes the bonus of
the quotation away. -/
theorem definition_overtaken : ¬ Rescaled asciiLetters shipped "define alpha beta gamma".toList []
      [passage 1 "alpha beta".toList, passage 2 "this is it".toList] ∧
    ¬ Rescaled asciiLetters shipped "alpha beta".toList "gamma".toList
      [passage 1 "alpha beta".toList] := by
  constructor
  · intro h
    exact absurd (h.order 1) (by decide +kernel)
  · intro h
    have hfresh : Fresh asciiLetters "gamma".toList [passage 1 "alpha beta".toList] :=
      ⟨by decide +kernel, by decide +kernel, by decide +kernel⟩
    exact absurd (h.scores hfresh _ List.mem_cons_self) (by decide +kernel)

end QnscKb.Rerank
