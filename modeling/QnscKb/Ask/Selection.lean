import QnscKb.Ask.Context
import QnscKb.Ask.Sections
import QnscKb.Lib.Firsts
import Mathlib.Data.List.Induction
import Mathlib.Data.List.MinMax
import Mathlib.Data.List.Sort
import Mathlib.Data.Rat.Defs
import Mathlib.Algebra.Order.BigOperators.Group.List
import Mathlib.Algebra.Order.Field.Rat

/-!
# Ask — Selection

The passages an answer is given (`_resolve_parent_context`, `_per_article_cap` and `_select_context`
of `src/domain/ai_service.py`): child hits come together by parent, and the best parents are taken
within three budgets and a cap for each article.  A `float` is a rational.
-/

namespace QnscKb.Ask.Selection

open Firsts (firsts)

structure ContextSettings where
  maxContextParents : Nat
  maxParentsPerArticle : Nat
  parentContextChars : Nat
  contextMaxChars : Nat
  contextMaxTokens : Nat
  minContextScore : ℚ
  maxContextParents_pos : 0 < maxContextParents

/-- What of a result the selection reads; `none` is `None`. -/
structure Result where
  chunkId : Option Text
  parentChunkId : Option Text
  articleId : Option Text
  score : Option ℚ
  parentText : Option Text
  chunkText : Option Text
  deriving DecidableEq

namespace Result

variable (r : Result)

/-- `str(result.get("chunk_id"))`. -/
def childId : Text := r.chunkId.getD "None".toList

/-- `str(result.get("parent_chunk_id") or result.get("chunk_id"))`. -/
def parentId : Text := Text.orElse r.parentChunkId r.childId

/-- `str(result.get("article_id") or "")`. -/
def article : Text := r.articleId.getD []

/-- `float(result.get("score") or 0.0)`. -/
def value : ℚ := r.score.getD 0

/-- `result.get("parent_text") or result.get("chunk_text") or ""`. -/
def text : Text := Text.orElse r.parentText (r.chunkText.getD [])

/-- The chunk a result is about, in its parent. -/
def place : Text × Text := (r.parentId, r.childId)

end Result

/-- An entry of `_resolve_parent_context`: the strongest result of a parent. -/
structure Parent where
  parentId : Text
  result : Result
  childIds : List Text

/-- A passage of the answer's context. -/
structure Item where
  parent : Parent
  contextText : Text
  sourceId : Text

/-! ### Parents -/

/-- A further result of a parent: a chunk that is there already changes nothing. -/
def Parent.add (p : Parent) (r : Result) : Parent :=
  if r.childId ∈ p.childIds then p
  else
    { p with
      childIds := p.childIds ++ [r.childId]
      result := if p.result.value < r.value then r else p.result }

def group (grouped : List Parent) (r : Result) : List Parent :=
  if r.parentId ∈ grouped.map Parent.parentId then
    grouped.map fun p => if p.parentId = r.parentId then p.add r else p
  else grouped ++ [⟨r.parentId, r, [r.childId]⟩]

def resolveParentContext (results : List Result) : List Parent :=
  (results.foldl group []).insertionSort fun p q => q.result.value ≤ p.result.value

/-- The results that count for a parent: the first of each of its chunks. -/
def candidates (results : List Result) (parentId : Text) : List Result :=
  (firsts Result.place results).filter fun r => r.parentId = parentId

/-- The strongest result of each parent, the strongest first. -/
def strongest (results : List Result) : List Result :=
  (((firsts Result.parentId results).map Result.parentId).filterMap fun p =>
    (candidates results p).argmax Result.value).insertionSort fun r s => s.value ≤ r.value

theorem firsts_concat {κ : Type} [DecidableEq κ] (key : Result → κ) (results : List Result)
    (r : Result) : firsts key (results ++ [r]) =
      firsts key results ++ if key r ∈ results.map key then [] else [r] := by
  rw [Firsts.firsts_append]
  refine congrArg _ ?_
  by_cases h : key r ∈ results.map key
  · rw [if_pos h, List.filter_eq_nil_iff]
    exact fun s hs => by simpa [List.mem_singleton.mp hs] using h
  · rw [if_neg h]
    exact List.filter_eq_self.mpr fun s hs => by simpa [List.mem_singleton.mp hs] using h

section Candidates

variable {results : List Result} {r : Result} {q : Text}

theorem parentId_of_mem_candidates (h : r ∈ candidates results q) : r.parentId = q :=
  of_decide_eq_true (List.mem_filter.mp h).2

theorem mem_of_mem_candidates (h : r ∈ candidates results q) : r ∈ results :=
  Firsts.mem_of_mem_firsts (List.mem_filter.mp h).1

theorem mem_map_candidates {c : Text} : c ∈ (candidates results q).map Result.childId ↔
    ∃ s ∈ results, s.parentId = q ∧ s.childId = c := by
  rw [List.mem_map]
  constructor
  · rintro ⟨s, hs, hc⟩
    exact ⟨s, mem_of_mem_candidates hs, parentId_of_mem_candidates hs, hc⟩
  · rintro ⟨s, hs, rfl, rfl⟩
    obtain ⟨t, ht, hplace⟩ : ∃ t ∈ firsts Result.place results, t.place = s.place :=
      Firsts.exists_mem_firsts hs
    obtain ⟨hparent, hchild⟩ := Prod.mk.inj hplace
    exact ⟨t, List.mem_filter.mpr ⟨ht, decide_eq_true hparent⟩, hchild⟩

theorem nodup_candidates (results : List Result) (q : Text) :
    ((candidates results q).map Result.childId).Nodup := by
  have hfirsts : (candidates results q).Pairwise fun r s => r.place ≠ s.place :=
    (List.pairwise_map.mp (Firsts.nodup_firsts results)).filter _
  refine List.pairwise_map.mpr (hfirsts.imp_of_mem fun hr hs hne hchild => hne ?_)
  rw [Result.place, Result.place, hchild, parentId_of_mem_candidates hr,
    parentId_of_mem_candidates hs]

theorem candidates_concat (results : List Result) (r : Result) (q : Text) :
    candidates (results ++ [r]) q = candidates results q ++
      if r.parentId = q ∧ r.childId ∉ (candidates results q).map Result.childId then [r]
      else [] := by
  rw [candidates, firsts_concat, List.filter_append]
  refine congrArg _ ?_
  by_cases hparent : r.parentId = q
  · subst hparent
    have hplace : r.place ∈ results.map Result.place ↔
        r.childId ∈ (candidates results r.parentId).map Result.childId := by
      rw [mem_map_candidates, List.mem_map]
      exact exists_congr fun s => and_congr_right fun _ => Prod.mk_inj
    by_cases hmem : r.place ∈ results.map Result.place
    · rw [if_pos hmem, if_neg fun hnew => hnew.2 (hplace.mp hmem), List.filter_nil]
    · rw [if_neg hmem, if_pos ⟨rfl, fun hchild => hmem (hplace.mpr hchild)⟩]
      exact List.filter_eq_self.mpr fun s hs => by simp [List.mem_singleton.mp hs]
  · rw [if_neg (fun hnew => hparent hnew.1 : ¬(r.parentId = q ∧ _)), List.filter_eq_nil_iff]
    intro s hs
    split_ifs at hs
    · cases hs
    · simpa [List.mem_singleton.mp hs] using hparent

end Candidates

/-- What an entry is after some results. -/
structure Collapsed (results : List Result) (p : Parent) : Prop where
  strongest : (candidates results p.parentId).argmax Result.value = some p.result
  children : p.childIds = (candidates results p.parentId).map Result.childId

/-- The parents of results, in the order of their first results. -/
structure Grouped (results : List Result) (grouped : List Parent) : Prop where
  ids : grouped.map Parent.parentId = (firsts Result.parentId results).map Result.parentId
  collapsed : ∀ p ∈ grouped, Collapsed results p

theorem Parent.add_parentId (p : Parent) (r : Result) : (p.add r).parentId = p.parentId := by
  rw [Parent.add]
  split_ifs <;> rfl

namespace Collapsed

variable {results : List Result} {p : Parent} {r : Result}

theorem first (h : r.parentId ∉ results.map Result.parentId) :
    Collapsed (results ++ [r]) ⟨r.parentId, r, [r.childId]⟩ := by
  have hnone : candidates results r.parentId = [] :=
    List.eq_nil_iff_forall_not_mem.mpr fun s hs =>
      h (List.mem_map.mpr ⟨s, mem_of_mem_candidates hs, parentId_of_mem_candidates hs⟩)
  have hone : candidates (results ++ [r]) r.parentId = [r] := by
    rw [candidates_concat, hnone]
    simp
  exact ⟨by rw [hone]; rfl, by rw [hone]; rfl⟩

theorem other (h : Collapsed results p) (hparent : r.parentId ≠ p.parentId) :
    Collapsed (results ++ [r]) p := by
  have hsame : candidates (results ++ [r]) p.parentId = candidates results p.parentId := by
    rw [candidates_concat, if_neg fun hnew => hparent hnew.1, List.append_nil]
  exact ⟨by rw [hsame]; exact h.strongest, by rw [hsame]; exact h.children⟩

theorem add (h : Collapsed results p) (hparent : r.parentId = p.parentId) :
    Collapsed (results ++ [r]) (p.add r) := by
  have hmore := candidates_concat results r p.parentId
  rw [← h.children] at hmore
  by_cases hchild : r.childId ∈ p.childIds
  · rw [if_neg fun hnew => hnew.2 hchild, List.append_nil] at hmore
    rw [Parent.add, if_pos hchild]
    exact ⟨by rw [hmore]; exact h.strongest, by rw [hmore]; exact h.children⟩
  · rw [if_pos ⟨hparent, hchild⟩] at hmore
    constructor
    · rw [p.add_parentId, hmore, List.argmax_concat, h.strongest, Parent.add]
      dsimp only
      split_ifs <;> rfl
    · rw [p.add_parentId, hmore, List.map_append, ← h.children, Parent.add, if_neg hchild]
      rfl

end Collapsed

/-- **What one result does.** -/
theorem Grouped.step {results : List Result} {grouped : List Parent} (h : Grouped results grouped)
    (r : Result) : Grouped (results ++ [r]) (group grouped r) := by
  have hids : r.parentId ∈ grouped.map Parent.parentId ↔
      r.parentId ∈ results.map Result.parentId := by
    rw [h.ids, List.mem_map, List.mem_map]
    constructor
    · rintro ⟨s, hs, hparent⟩
      exact ⟨s, Firsts.mem_of_mem_firsts hs, hparent⟩
    · rintro ⟨s, hs, hparent⟩
      obtain ⟨t, ht, hkey⟩ : ∃ t ∈ firsts Result.parentId results, t.parentId = s.parentId :=
        Firsts.exists_mem_firsts hs
      exact ⟨t, ht, hkey.trans hparent⟩
  rw [group]
  split_ifs with hold
  · refine ⟨?_, fun q hq => ?_⟩
    · rw [firsts_concat, if_pos (hids.mp hold), List.append_nil, ← h.ids, List.map_map]
      refine List.map_congr_left fun p _ => ?_
      rw [Function.comp_apply]
      split_ifs
      · exact p.add_parentId r
      · rfl
    · obtain ⟨p, hp, rfl⟩ := List.mem_map.mp hq
      split_ifs with hparent
      · exact (h.collapsed p hp).add hparent.symm
      · exact (h.collapsed p hp).other (Ne.symm hparent)
  · refine ⟨?_, List.forall_mem_append.mpr ⟨fun p hp => ?_, List.forall_mem_singleton.mpr ?_⟩⟩
    · rw [firsts_concat, if_neg fun hmem => hold (hids.mpr hmem), List.map_append, h.ids,
        List.map_append]
      rfl
    · exact (h.collapsed p hp).other fun hparent => hold (hparent ▸ List.mem_map_of_mem hp)
    · exact .first fun hmem => hold (hids.mpr hmem)

theorem grouped_foldl (results : List Result) : Grouped results (results.foldl group []) := by
  induction results using List.reverseRecOn with
  | nil => exact ⟨rfl, fun _ h => absurd h List.not_mem_nil⟩
  | append_singleton results r ih =>
    rw [List.foldl_append]
    exact ih.step r

/-- **The parents have the strongest results.** -/
theorem resolve_strongest (results : List Result) :
    (resolveParentContext results).map Parent.result = strongest results := by
  have hgrouped := grouped_foldl results
  rw [strongest, ← hgrouped.ids, List.filterMap_map]
  refine (List.map_insertionSort _ (fun r s : Result => s.value ≤ r.value) _ _
    fun _ _ _ _ => Iff.rfl).trans ?_
  congr 1
  rw [← List.filterMap_eq_map]
  exact List.filterMap_congr fun p hp => (hgrouped.collapsed p hp).strongest.symm

theorem collapsed_of_mem {results : List Result} {p : Parent}
    (h : p ∈ resolveParentContext results) : Collapsed results p :=
  (grouped_foldl results).collapsed p ((List.mem_insertionSort _).mp h)

/-! ### The selection -/

variable (settings : ContextSettings)

def perArticleCap (parents : List Parent) : Nat :=
  let distinct := (parents.map fun p => p.result.article).dedup.length
  if distinct = 0 then settings.maxParentsPerArticle
  else max settings.maxParentsPerArticle ((settings.maxContextParents + distinct - 1) / distinct)

def contextText (r : Result) : Text := compressContext r.text settings.parentContextChars

def contextTokens (t : Text) : Nat := max 1 ((t.length + 3) / 4)

/-- The variables of the loop. -/
structure Chosen where
  selected : List Item := []
  totalChars : Nat := 0
  totalTokens : Nat := 0
  articleCounts : Text → Nat := fun _ => 0

/-- None of the checks of the loop skips a parent. -/
def Chosen.admits (cap : Nat) (s : Chosen) (p : Parent) : Bool :=
  let text := contextText settings p.result
  decide (settings.minContextScore ≤ p.result.value) &&
    decide (s.articleCounts p.result.article < cap) && !text.isEmpty &&
      !decide (s.totalChars ≠ 0 ∧ settings.contextMaxChars < s.totalChars + text.length) &&
        !decide (s.totalTokens ≠ 0 ∧ settings.contextMaxTokens < s.totalTokens + contextTokens text)

def Chosen.take (s : Chosen) (p : Parent) : Chosen where
  selected :=
    s.selected ++ [⟨p, contextText settings p.result, 'C' :: decimal (s.selected.length + 1)⟩]
  totalChars := s.totalChars + (contextText settings p.result).length
  totalTokens := s.totalTokens + contextTokens (contextText settings p.result)
  articleCounts := Function.update s.articleCounts p.result.article
    (s.articleCounts p.result.article + 1)

/-- The loop of `_select_context`. -/
def selectFrom (cap : Nat) : Chosen → List Parent → Chosen
  | s, [] => s
  | s, p :: parents =>
    if s.admits settings cap p then
      let s := s.take settings p
      if settings.maxContextParents ≤ s.selected.length then s else selectFrom cap s parents
    else selectFrom cap s parents

def selectContext (results : List Result) : List Item :=
  let parents := resolveParentContext results
  (selectFrom settings (perArticleCap settings parents) {} parents).selected

/-! ### Budgets -/

/-- What the loop keeps to. -/
structure Kept (cap : Nat) (s : Chosen) : Prop where
  numbered : s.selected.map Item.sourceId =
    (List.range s.selected.length).map fun i => 'C' :: decimal (i + 1)
  inked : ∀ i ∈ s.selected, i.contextText ≠ []
  chars : s.totalChars = (s.selected.map fun i => i.contextText.length).sum
  tokens : s.totalTokens = (s.selected.map fun i => contextTokens i.contextText).sum
  charsLe : settings.contextMaxChars < s.totalChars → s.selected.length = 1
  tokensLe : settings.contextMaxTokens < s.totalTokens → s.selected.length = 1
  counts : ∀ a, s.articleCounts a = (s.selected.filter fun i => i.parent.result.article = a).length
  capped : ∀ a, s.articleCounts a ≤ cap

variable {settings} {cap : Nat} {s : Chosen} {p : Parent}

theorem Chosen.admits_iff : s.admits settings cap p = true ↔
    settings.minContextScore ≤ p.result.value ∧ s.articleCounts p.result.article < cap ∧
      contextText settings p.result ≠ [] ∧
        (s.totalChars = 0 ∨
          s.totalChars + (contextText settings p.result).length ≤ settings.contextMaxChars) ∧
          (s.totalTokens = 0 ∨ s.totalTokens + contextTokens (contextText settings p.result) ≤
            settings.contextMaxTokens) := by
  simp only [Chosen.admits, Bool.and_eq_true, Bool.not_eq_true', decide_eq_true_eq,
    decide_eq_false_iff_not, not_and_or, not_not, not_lt, List.isEmpty_eq_false_iff, and_assoc,
    ne_eq]

theorem kept_start : Kept settings cap {} where
  numbered := rfl
  inked := fun _ h => absurd h List.not_mem_nil
  chars := rfl
  tokens := rfl
  charsLe := fun h => absurd h (Nat.not_lt_zero _)
  tokensLe := fun h => absurd h (Nat.not_lt_zero _)
  counts := fun _ => rfl
  capped := fun _ => Nat.zero_le _

theorem Kept.empty_of_chars (h : Kept settings cap s) (hzero : s.totalChars = 0) :
    s.selected = [] := by
  rw [h.chars, List.sum_eq_zero_iff_forall_eq_nat] at hzero
  rw [List.eq_nil_iff_forall_not_mem]
  exact fun i hi => h.inked i hi
    (List.length_eq_zero_iff.mp (hzero _ (List.mem_map_of_mem hi)))

theorem Kept.empty_of_tokens (h : Kept settings cap s) (hzero : s.totalTokens = 0) :
    s.selected = [] := by
  rw [h.tokens, List.sum_eq_zero_iff_forall_eq_nat] at hzero
  rw [List.eq_nil_iff_forall_not_mem]
  intro i hi
  have hone : 1 ≤ contextTokens i.contextText := Nat.le_max_left _ _
  rw [hzero _ (List.mem_map_of_mem hi)] at hone
  exact Nat.not_succ_le_zero 0 hone

/-- **A parent that passes the checks keeps the budgets.** -/
theorem Kept.take (h : Kept settings cap s) (hadmits : s.admits settings cap p = true) :
    Kept settings cap (s.take settings p) := by
  obtain ⟨-, hcap, htext, hchars, htokens⟩ := Chosen.admits_iff.mp hadmits
  refine ⟨?_, ?_, ?_, ?_, fun hover => ?_, fun hover => ?_, fun a => ?_, fun a => ?_⟩
  · rw [Chosen.take, List.map_append, h.numbered, List.length_append, List.length_singleton,
      List.range_succ, List.map_append]
    rfl
  · exact List.forall_mem_append.mpr ⟨h.inked, List.forall_mem_singleton.mpr htext⟩
  · rw [Chosen.take, List.map_append, List.sum_append, ← h.chars, List.map_singleton,
      List.sum_singleton]
  · rw [Chosen.take, List.map_append, List.sum_append, ← h.tokens, List.map_singleton,
      List.sum_singleton]
  · have hzero : s.totalChars = 0 := hchars.resolve_right (Nat.not_le_of_lt hover)
    rw [Chosen.take, h.empty_of_chars hzero]
    rfl
  · have hzero : s.totalTokens = 0 := htokens.resolve_right (Nat.not_le_of_lt hover)
    rw [Chosen.take, h.empty_of_tokens hzero]
    rfl
  · rw [Chosen.take, List.filter_append, List.length_append, ← h.counts]
    by_cases ha : a = p.result.article
    · subst ha
      simp
    · simp [Function.update_of_ne ha, Ne.symm ha]
  · rw [Chosen.take]
    by_cases ha : a = p.result.article
    · subst ha
      dsimp only
      rw [Function.update_self]
      exact hcap
    · dsimp only
      rw [Function.update_of_ne ha]
      exact h.capped a

/-- The budgets hold, whatever is skipped. -/
theorem kept_selectFrom (h : Kept settings cap s) (parents : List Parent) :
    Kept settings cap (selectFrom settings cap s parents) := by
  induction parents generalizing s with
  | nil => exact h
  | cons p parents ih =>
    rw [selectFrom]
    split_ifs with hadmits
    · dsimp only
      split_ifs
      · exact h.take hadmits
      · exact ih (h.take hadmits)
    · exact ih h

/-! ### What is taken -/

theorem compressContext_eq_nil {t : Text} {n : Nat} :
    compressContext t n = [] ↔ Text.strip t = [] := by
  rw [compressContext]
  by_cases hshort : (Text.strip t).length ≤ n
  · rw [if_pos hshort]
  · rw [if_neg hshort]
    refine iff_of_false (List.append_ne_nil_of_right_ne_nil _ (by decide)) fun hnil => hshort ?_
    rw [hnil]
    exact Nat.zero_le n

section Eligible

variable (settings) (r : Result) (results : List Result)

/-- A result that may be taken: its score is enough and it has text. -/
def Eligible : Prop :=
  settings.minContextScore ≤ r.value ∧ Text.strip r.text ≠ []

instance : DecidablePred (Eligible settings) := fun _ => inferInstanceAs (Decidable (_ ∧ _))

def eligible : List Result := results.filter fun r => Eligible settings r

def textChars : Nat := (results.map fun r => (contextText settings r).length).sum

def textTokens : Nat := (results.map fun r => contextTokens (contextText settings r)).sum

variable {settings r}

theorem eligible_cons_of_pos (h : Eligible settings r) :
    eligible settings (r :: results) = r :: eligible settings results :=
  List.filter_cons_of_pos (decide_eq_true h)

theorem eligible_cons_of_neg (h : ¬ Eligible settings r) :
    eligible settings (r :: results) = eligible settings results :=
  List.filter_cons_of_neg (by simpa using h)

end Eligible

theorem eligible_of_admits (h : s.admits settings cap p = true) : Eligible settings p.result := by
  obtain ⟨hscore, -, htext, -⟩ := Chosen.admits_iff.mp h
  exact ⟨hscore, fun hnil => htext (compressContext_eq_nil.mpr hnil)⟩

theorem taken_selectFrom (parents : List Parent) :
    ∃ taken : List Item, (selectFrom settings cap s parents).selected = s.selected ++ taken ∧
      (taken.map fun i => i.parent.result).Sublist
        (eligible settings (parents.map Parent.result)) := by
  induction parents generalizing s with
  | nil => exact ⟨[], (List.append_nil _).symm, List.nil_sublist _⟩
  | cons p parents ih =>
    rw [selectFrom, List.map_cons]
    split_ifs with hadmits
    · rw [eligible_cons_of_pos _ (eligible_of_admits hadmits)]
      dsimp only
      split_ifs
      · exact ⟨_, rfl, (List.nil_sublist _).cons_cons _⟩
      · obtain ⟨taken, htaken, hsub⟩ := ih (s := s.take settings p)
        refine ⟨⟨p, contextText settings p.result, 'C' :: decimal (s.selected.length + 1)⟩ :: taken,
          ?_, hsub.cons_cons _⟩
        rw [htaken, Chosen.take, List.append_assoc, List.singleton_append]
    · obtain ⟨taken, htaken, hsub⟩ := ih (s := s)
      exact ⟨taken, htaken, hsub.trans ((List.sublist_cons_self _ _).filter _)⟩

/-- Of parents of one article that fit in the budgets, as many are taken as the cap and the number
of passages let. -/
theorem length_selectFrom {a : Text} {parents : List Parent}
    (hcount : s.articleCounts a = s.selected.length)
    (hmore : s.selected.length < settings.maxContextParents) (hcap : s.selected.length ≤ cap)
    (hone : ∀ p ∈ parents, Eligible settings p.result → p.result.article = a)
    (hchars : s.totalChars + textChars settings ((eligible settings (parents.map Parent.result)).take
      (min settings.maxContextParents cap - s.selected.length)) ≤ settings.contextMaxChars)
    (htokens : s.totalTokens + textTokens settings ((eligible settings
      (parents.map Parent.result)).take
        (min settings.maxContextParents cap - s.selected.length)) ≤ settings.contextMaxTokens) :
    (selectFrom settings cap s parents).selected.length = min (min settings.maxContextParents cap)
      (s.selected.length + (eligible settings (parents.map Parent.result)).length) := by
  induction parents generalizing s with
  | nil =>
    exact (Nat.min_eq_right (Nat.le_min.mpr ⟨hmore.le, hcap⟩)).symm
  | cons p parents ih =>
    obtain ⟨honeHead, hone⟩ := List.forall_mem_cons.mp hone
    by_cases heligible : Eligible settings p.result
    · rw [List.map_cons, eligible_cons_of_pos _ heligible] at hchars htokens ⊢
      have harticle := honeHead heligible
      rcases hcap.lt_or_eq with hroom | hfull
      · -- there is room for it, and its text is the first that the budgets have to hold
        have hleft : min settings.maxContextParents cap - s.selected.length =
            min settings.maxContextParents cap - (s.selected.length + 1) + 1 := by omega
        rw [hleft, List.take_succ_cons] at hchars htokens
        rw [textChars, List.map_cons, List.sum_cons, ← Nat.add_assoc] at hchars
        rw [textTokens, List.map_cons, List.sum_cons, ← Nat.add_assoc] at htokens
        have hadmits : s.admits settings cap p = true := by
          refine Chosen.admits_iff.mpr ⟨heligible.1, ?_, ?_, .inr ?_, .inr ?_⟩
          · rw [harticle, hcount]
            exact hroom
          · exact fun hnil => heligible.2 (compressContext_eq_nil.mp hnil)
          · exact (Nat.le_add_right _ _).trans hchars
          · exact (Nat.le_add_right _ _).trans htokens
        have hlength : (s.take settings p).selected.length = s.selected.length + 1 := by
          rw [Chosen.take, List.length_append, List.length_singleton]
        rw [selectFrom]
        dsimp only
        split_ifs with hlast
        · rw [hlength] at hlast ⊢
          rw [List.length_cons]
          omega
        · rw [ih _ (by rw [hlength] at hlast ⊢; exact not_le.mp hlast) (by rw [hlength]; exact hroom)
            hone (by rw [hlength]; exact hchars) (by rw [hlength]; exact htokens), hlength,
            List.length_cons]
          · omega
          · rw [Chosen.take, harticle]
            dsimp only
            rw [Function.update_self, hcount, List.length_append, List.length_singleton]
      · -- the article has all that it may have
        have hnot : ¬ s.admits settings cap p = true := fun hadmits => by
          have hlt := (Chosen.admits_iff.mp hadmits).2.1
          rw [harticle, hcount, hfull] at hlt
          exact lt_irrefl _ hlt
        have hnone : min settings.maxContextParents cap - s.selected.length = 0 := by omega
        rw [hnone] at hchars htokens
        rw [selectFrom, if_neg hnot, ih hcount hmore hcap hone (by rw [hnone]; exact hchars)
          (by rw [hnone]; exact htokens), List.length_cons]
        omega
    · rw [List.map_cons, eligible_cons_of_neg _ heligible] at hchars htokens ⊢
      rw [selectFrom, if_neg fun hadmits => heligible (eligible_of_admits hadmits)]
      exact ih hcount hmore hcap hone hchars htokens

/-! ### The selection as a whole -/

variable (settings) (results : List Result)

def articles : List Text := ((strongest results).map Result.article).dedup

def OneArticle : Prop := ∃ a, ∀ r ∈ eligible settings (strongest results), r.article = a

/-- The budgets hold the texts of as many parents as an answer may have. -/
def TextsFit : Prop :=
  let best := (eligible settings (strongest results)).take settings.maxContextParents
  textChars settings best ≤ settings.contextMaxChars ∧
    textTokens settings best ≤ settings.contextMaxTokens

/-- The parents are those of the results, with their best scores and all chunks, and the selection
keeps its budgets and wastes none. -/
structure ContextKept : Prop where
  parents : ((resolveParentContext results).map Parent.parentId).Nodup ∧
    ∀ q, q ∈ (resolveParentContext results).map Parent.parentId ↔ q ∈ results.map Result.parentId
  best : ∀ p ∈ resolveParentContext results,
    (∃ r ∈ results, r.parentId = p.parentId ∧ r.value = p.result.value) ∧
      ∀ r ∈ results, r.parentId = p.parentId → r.value ≤ p.result.value
  children : ∀ p ∈ resolveParentContext results, p.childIds.Nodup ∧
    ∀ c, c ∈ p.childIds ↔ ∃ r ∈ results, r.parentId = p.parentId ∧ r.childId = c
  numbered : (selectContext settings results).map Item.sourceId =
    (List.range (selectContext settings results).length).map fun i => 'C' :: decimal (i + 1)
  chars : settings.contextMaxChars <
    ((selectContext settings results).map fun i => i.contextText.length).sum →
      (selectContext settings results).length = 1
  tokens : settings.contextMaxTokens <
    ((selectContext settings results).map fun i => contextTokens i.contextText).sum →
      (selectContext settings results).length = 1
  capped : ∀ a, ((selectContext settings results).filter fun i =>
    i.parent.result.article = a).length ≤ perArticleCap settings (resolveParentContext results)
  whole : OneArticle settings results → TextsFit settings results →
    ((selectContext settings results).map fun i => i.parent.result).Sublist
      (eligible settings (strongest results)) ∧
      (selectContext settings results).length =
        min settings.maxContextParents (eligible settings (strongest results)).length

variable {settings results}

theorem mem_parentIds {q : Text} :
    q ∈ (resolveParentContext results).map Parent.parentId ↔ q ∈ results.map Result.parentId := by
  have hperm := ((List.perm_insertionSort (fun p q : Parent => q.result.value ≤ p.result.value)
    (results.foldl group [])).map Parent.parentId).mem_iff (a := q)
  rw [resolveParentContext, hperm, (grouped_foldl results).ids, List.mem_map, List.mem_map]
  constructor
  · rintro ⟨r, hr, hq⟩
    exact ⟨r, Firsts.mem_of_mem_firsts hr, hq⟩
  · rintro ⟨r, hr, rfl⟩
    exact Firsts.exists_mem_firsts hr

theorem nodup_parentIds : ((resolveParentContext results).map Parent.parentId).Nodup := by
  rw [resolveParentContext, ((List.perm_insertionSort _ _).map _).nodup_iff,
    (grouped_foldl results).ids]
  exact Firsts.nodup_firsts results

theorem best_iff : (∀ p ∈ resolveParentContext results,
    (∃ r ∈ results, r.parentId = p.parentId ∧ r.value = p.result.value) ∧
      ∀ r ∈ results, r.parentId = p.parentId → r.value ≤ p.result.value) ↔
    ∀ r ∈ results, ∃ s ∈ firsts Result.place results, s.parentId = r.parentId ∧
      r.value ≤ s.value := by
  constructor
  · intro h r hr
    obtain ⟨p, hp, hparent⟩ := List.mem_map.mp
      (mem_parentIds.mpr (List.mem_map_of_mem hr : r.parentId ∈ _))
    have hbest := List.argmax_mem (collapsed_of_mem hp).strongest
    exact ⟨p.result, List.mem_of_mem_filter hbest,
      (parentId_of_mem_candidates hbest).trans hparent, (h p hp).2 r hr hparent.symm⟩
  · intro h p hp
    have hstrongest := (collapsed_of_mem hp).strongest
    have hbest := List.argmax_mem hstrongest
    refine ⟨⟨p.result, mem_of_mem_candidates hbest, parentId_of_mem_candidates hbest, rfl⟩,
      fun r hr hparent => ?_⟩
    obtain ⟨s, hs, hsparent, hle⟩ := h r hr
    have hcandidate : s ∈ candidates results p.parentId :=
      List.mem_filter.mpr ⟨hs, decide_eq_true (hsparent.trans hparent)⟩
    exact hle.trans (List.le_of_mem_argmax hcandidate hstrongest)

theorem perArticleCap_resolve (h : articles results ≠ []) :
    perArticleCap settings (resolveParentContext results) =
      max settings.maxParentsPerArticle
        ((settings.maxContextParents + (articles results).length - 1) /
          (articles results).length) := by
  have harticles : (resolveParentContext results).map (fun p => p.result.article) =
      (strongest results).map Result.article := by
    rw [← resolve_strongest, List.map_map]
    rfl
  rw [perArticleCap, harticles]
  exact if_neg fun hzero => h (List.length_eq_zero_iff.mp hzero)

theorem length_selectContext (hone : OneArticle settings results)
    (hfit : TextsFit settings results) : (selectContext settings results).length =
      min (min settings.maxContextParents (perArticleCap settings (resolveParentContext results)))
        (eligible settings (strongest results)).length := by
  obtain ⟨a, hone⟩ := hone
  obtain ⟨hchars, htokens⟩ := hfit
  have htake : ∀ n, ((eligible settings (strongest results)).take
      (min settings.maxContextParents n)).Sublist
        ((eligible settings (strongest results)).take settings.maxContextParents) := fun n =>
    List.take_sublist_take_left (Nat.min_le_left _ _)
  refine (length_selectFrom (s := {}) (a := a) rfl settings.maxContextParents_pos (Nat.zero_le _)
    (fun p hp heligible => ?_) ?_ ?_).trans ?_
  · refine hone _ (List.mem_filter.mpr ⟨?_, decide_eq_true heligible⟩)
    rw [← resolve_strongest]
    exact List.mem_map_of_mem hp
  · rw [resolve_strongest]
    exact (Nat.zero_add _).trans_le
      ((((htake _).map _).sum_le_sum fun _ _ => Nat.zero_le _).trans hchars)
  · rw [resolve_strongest]
    exact (Nat.zero_add _).trans_le
      ((((htake _).map _).sum_le_sum fun _ _ => Nat.zero_le _).trans htokens)
  · rw [resolve_strongest]
    exact congrArg _ (Nat.zero_add _)

/-- **No budget is broken and none is wasted when no stronger repetition is lost and the articles of
all the parents, strong or weak, leave room for what may be taken.** -/
theorem contextKept_iff (settings : ContextSettings) (results : List Result) :
    ContextKept settings results ↔
      (∀ r ∈ results, ∃ s ∈ firsts Result.place results, s.parentId = r.parentId ∧
        r.value ≤ s.value) ∧
      (OneArticle settings results → TextsFit settings results →
        min settings.maxContextParents (eligible settings (strongest results)).length ≤
          max settings.maxParentsPerArticle
            ((settings.maxContextParents + (articles results).length - 1) /
              (articles results).length)) := by
  have hkept := kept_selectFrom (kept_start : Kept settings
    (perArticleCap settings (resolveParentContext results)) {}) (resolveParentContext results)
  have hcap : (eligible settings (strongest results)).length ≠ 0 →
      perArticleCap settings (resolveParentContext results) = _ := fun hsome =>
    perArticleCap_resolve fun hnone => hsome <| by
      have hnil : strongest results = [] := by
        rw [articles, List.dedup_eq_nil, List.map_eq_nil_iff] at hnone
        exact hnone
      rw [hnil]
      rfl
  rw [← best_iff]
  constructor
  · intro h
    refine ⟨h.best, fun hone hfit => ?_⟩
    have hlength := (h.whole hone hfit).2
    rw [length_selectContext hone hfit] at hlength
    by_cases hsome : (eligible settings (strongest results)).length = 0
    · rw [hsome, Nat.min_zero]
      exact Nat.zero_le _
    · rw [hcap hsome] at hlength
      omega
  · rintro ⟨hbest, hroom⟩
    refine ⟨⟨nodup_parentIds, fun _ => mem_parentIds⟩, hbest, fun p hp => ?_, hkept.numbered, ?_, ?_,
      fun a => ?_, fun hone hfit => ⟨?_, ?_⟩⟩
    · rw [(collapsed_of_mem hp).children]
      exact ⟨nodup_candidates _ _, fun _ => mem_map_candidates⟩
    · exact fun hover => hkept.charsLe (hkept.chars ▸ hover)
    · exact fun hover => hkept.tokensLe (hkept.tokens ▸ hover)
    · exact hkept.counts a ▸ hkept.capped a
    · obtain ⟨taken, htaken, hsub⟩ : ∃ taken, selectContext settings results = [] ++ taken ∧ _ :=
        taken_selectFrom (resolveParentContext results)
      rw [resolve_strongest] at hsub
      rw [htaken]
      exact hsub
    · rw [length_selectContext hone hfit]
      by_cases hsome : (eligible settings (strongest results)).length = 0
      · rw [hsome, Nat.min_zero, Nat.min_zero]
      · rw [hcap hsome]
        have := hroom hone hfit
        omega

/-- Four strong passages of an article and a weak one of two others: with room for eight, three are
taken. -/
def crowded : List Result :=
  (["p1", "p2", "p3", "p4"].map fun p =>
    ⟨some p.toList, none, some "handbook".toList, some (9 / 10), some p.toList, none⟩) ++
  (["q1", "q2"].map fun p =>
    ⟨some p.toList, none, some p.toList, some (1 / 10), some p.toList, none⟩)

theorem weak_articles_starve : ∃ settings : ContextSettings,
    settings.maxContextParents = 8 ∧ settings.maxParentsPerArticle = 3 ∧
      ¬ ContextKept settings crowded := by
  refine ⟨⟨8, 3, 2400, 70000, 17500, 35 / 100, by decide⟩, rfl, rfl, fun h => ?_⟩
  have hone : OneArticle ⟨8, 3, 2400, 70000, 17500, 35 / 100, by decide⟩ crowded :=
    ⟨"handbook".toList, by decide +kernel⟩
  have hfit : TextsFit ⟨8, 3, 2400, 70000, 17500, 35 / 100, by decide⟩ crowded := by
    rw [TextsFit]
    decide +kernel
  exact absurd (h.whole hone hfit).2 (by decide +kernel)

end QnscKb.Ask.Selection
