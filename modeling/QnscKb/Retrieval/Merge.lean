import Mathlib.Data.List.Induction
import QnscKb.Lib.Top

/-!
# Retrieval — Merge

`merge_results` (`src/domain/agent/retrieve.py`): the passages several searches found, each chunk
once with its best score, best first.  Scores are of a linear order: a search returns no `nan`.
-/

namespace QnscKb.Retrieval

variable {σ : Type} [LinearOrder σ] [Zero σ]

/-- A passage a search returns; an absent id is empty. -/
structure Passage (σ : Type) where
  chunkId : String
  articleId : String
  score : Option σ
  deriving DecidableEq

def Passage.value (item : Passage σ) : σ := item.score.getD 0

/-- The body of the loop: a better score takes the place of the one in the dictionary. -/
def keepBest (best : List (Passage σ)) (item : Passage σ) : List (Passage σ) :=
  if item.chunkId = "" then best
  else if best.any fun current => current.chunkId == item.chunkId then
    best.map fun current =>
      if current.chunkId = item.chunkId ∧ current.value < item.value then item else current
  else best ++ [item]

def distinct (items : List (Passage σ)) : List (Passage σ) := items.foldl keepBest []

def mergeResults (groups : List (List (Passage σ))) (limit : Nat) : List (Passage σ) :=
  ((distinct groups.flatten).insertionSort fun a b => b.value ≤ a.value).take limit

/-- Group after group, as a sub-question's searches are merged. -/
def mergeOneByOne (limit : Nat) (groups : List (List (Passage σ))) : List (Passage σ) :=
  groups.foldl (fun merged group => mergeResults [merged, group] limit) []

/-! ### The dictionary -/

def Passage.entry (item : Passage σ) : String × σ := (item.chunkId, item.value)

def table (items : List (Passage σ)) : List (String × σ) :=
  (items.filter fun item => item.chunkId != "").map Passage.entry

omit [LinearOrder σ] in
theorem mem_table {items : List (Passage σ)} {key : String} {value : σ} :
    (key, value) ∈ table items ↔ key ≠ "" ∧ ∃ item ∈ items, item.chunkId = key ∧
      item.value = value := by
  simp only [table, List.mem_map, List.mem_filter, bne_iff_ne, Passage.entry, Prod.mk.injEq]
  constructor
  · rintro ⟨item, ⟨hitem, hne⟩, rfl, rfl⟩
    exact ⟨hne, item, hitem, rfl, rfl⟩
  · rintro ⟨hne, item, hitem, rfl, rfl⟩
    exact ⟨item, ⟨hitem, hne⟩, rfl, rfl⟩

/-- The dictionary after some passages: one for each chunk, with its best score. -/
structure Kept (items best : List (Passage σ)) : Prop where
  keys : (best.map Passage.chunkId).Nodup
  seen : ∀ item ∈ best, item ∈ items ∧ item.chunkId ≠ ""
  greatest : ∀ item ∈ best, ∀ other ∈ items, other.chunkId = item.chunkId → other.value ≤ item.value
  all : ∀ other ∈ items, other.chunkId ≠ "" → ∃ item ∈ best, item.chunkId = other.chunkId

omit [Zero σ] [LinearOrder σ] in
theorem mem_snoc {items : List (Passage σ)} {item : Passage σ} (other : Passage σ) :
    other ∈ items ++ [item] ↔ other ∈ items ∨ other = item := by
  simp

theorem Kept.skip {items best : List (Passage σ)} (h : Kept items best) {item : Passage σ}
    (hempty : item.chunkId = "") : Kept (items ++ [item]) best := by
  refine ⟨h.keys, fun p hp => ⟨(mem_snoc p).mpr (.inl (h.seen p hp).1), (h.seen p hp).2⟩, ?_, ?_⟩
  · intro p hp other hother heq
    rcases (mem_snoc other).mp hother with hother | rfl
    · exact h.greatest p hp other hother heq
    · exact absurd (heq.symm.trans hempty) (h.seen p hp).2
  · intro other hother hne
    rcases (mem_snoc other).mp hother with hother | rfl
    · exact h.all other hother hne
    · exact absurd hempty hne

theorem Kept.replace {items best : List (Passage σ)} (h : Kept items best) {item : Passage σ}
    (hne : item.chunkId ≠ "") (hknown : ∃ current ∈ best, current.chunkId = item.chunkId) :
    Kept (items ++ [item]) (best.map fun current => if current.chunkId = item.chunkId ∧
      current.value < item.value then item else current) := by
  have hkeys : (best.map fun current => if current.chunkId = item.chunkId ∧
      current.value < item.value then item else current).map Passage.chunkId =
        best.map Passage.chunkId := by
    rw [List.map_map]
    refine List.map_congr_left fun current _ => ?_
    simp only [Function.comp_apply]
    split
    · next hbetter => exact hbetter.1.symm
    · rfl
  refine ⟨hkeys ▸ h.keys, ?_, ?_, ?_⟩
  · intro p hp
    obtain ⟨current, hcurrent, rfl⟩ := List.mem_map.mp hp
    split
    · exact ⟨(mem_snoc _).mpr (.inr rfl), hne⟩
    · exact ⟨(mem_snoc _).mpr (.inl (h.seen current hcurrent).1), (h.seen current hcurrent).2⟩
  · intro p hp other hother heq
    obtain ⟨current, hcurrent, rfl⟩ := List.mem_map.mp hp
    rcases (mem_snoc other).mp hother with hother | rfl
    · split at heq
      · next hbetter =>
        rw [if_pos hbetter]
        exact (h.greatest current hcurrent other hother
          (heq.trans hbetter.1.symm)).trans hbetter.2.le
      · next hworse =>
        rw [if_neg hworse]
        exact h.greatest current hcurrent other hother heq
    · split at heq
      · next hbetter => rw [if_pos hbetter]
      · next hworse =>
        rw [if_neg hworse]
        exact not_lt.mp fun hlt => hworse ⟨heq.symm, hlt⟩
  · intro other hother hne
    have hfound : ∃ current ∈ best, current.chunkId = other.chunkId := by
      rcases (mem_snoc other).mp hother with hother | rfl
      · exact h.all other hother hne
      · exact hknown
    have hmem := List.mem_map.mpr hfound
    rw [← hkeys] at hmem
    exact List.mem_map.mp hmem

theorem Kept.push {items best : List (Passage σ)} (h : Kept items best) {item : Passage σ}
    (hne : item.chunkId ≠ "") (hnew : ∀ current ∈ best, current.chunkId ≠ item.chunkId) :
    Kept (items ++ [item]) (best ++ [item]) := by
  refine ⟨?_, ?_, ?_, ?_⟩
  · rw [List.map_append, List.nodup_append]
    refine ⟨h.keys, List.nodup_singleton _, ?_⟩
    intro a ha b hb
    obtain ⟨current, hcurrent, rfl⟩ := List.mem_map.mp ha
    rw [List.mem_singleton.mp hb]
    exact hnew current hcurrent
  · intro p hp
    rcases List.mem_append.mp hp with hp | hp
    · exact ⟨(mem_snoc p).mpr (.inl (h.seen p hp).1), (h.seen p hp).2⟩
    · obtain rfl := List.mem_singleton.mp hp
      exact ⟨(mem_snoc p).mpr (.inr rfl), hne⟩
  · intro p hp other hother heq
    rcases List.mem_append.mp hp with hbest | hlast
    · rcases (mem_snoc other).mp hother with hold | rfl
      · exact h.greatest p hbest other hold heq
      · exact absurd heq.symm (hnew p hbest)
    · obtain rfl := List.mem_singleton.mp hlast
      rcases (mem_snoc other).mp hother with hother | rfl
      · obtain ⟨current, hcurrent, hsame⟩ := h.all other hother (heq ▸ hne)
        exact absurd (hsame.trans heq) (hnew current hcurrent)
      · exact le_refl _
  · intro other hother hne
    rcases (mem_snoc other).mp hother with hother | rfl
    · obtain ⟨current, hcurrent, hsame⟩ := h.all other hother hne
      exact ⟨current, List.mem_append_left _ hcurrent, hsame⟩
    · exact ⟨other, List.mem_append_right _ (List.mem_singleton.mpr rfl), rfl⟩

theorem Kept.step {items best : List (Passage σ)} (h : Kept items best) (item : Passage σ) :
    Kept (items ++ [item]) (keepBest best item) := by
  rw [keepBest]
  split
  · rename_i hempty
    exact h.skip hempty
  · rename_i hne
    split
    · rename_i hknown
      exact h.replace hne (by simpa using hknown)
    · rename_i hnew
      exact h.push hne (by simpa using hnew)

theorem kept_distinct (items : List (Passage σ)) : Kept items (distinct items) := by
  induction items using List.reverseRecOn with
  | nil => exact ⟨List.nodup_nil, nofun, nofun, nofun⟩
  | append_singleton items item ih =>
    rw [distinct, List.foldl_append]
    exact ih.step item

/-! ### The merge -/

theorem mem_mergeResults {groups : List (List (Passage σ))} {limit : Nat} {item : Passage σ}
    (h : item ∈ mergeResults groups limit) :
    item ∈ distinct groups.flatten :=
  (List.mem_insertionSort _).mp (List.mem_of_mem_take h)

/-- **The merged passages are the top of what was found.** -/
theorem top_mergeResults (groups : List (List (Passage σ))) (limit : Nat) :
    Top limit (table groups.flatten) ((mergeResults groups limit).map Passage.entry) := by
  have hkept := kept_distinct groups.flatten
  let ranked := (distinct groups.flatten).insertionSort fun a b => b.value ≤ a.value
  have hperm : ranked.Perm (distinct groups.flatten) := List.perm_insertionSort _ _
  have hsorted : ranked.Pairwise fun a b => b.value ≤ a.value := List.pairwise_insertionSort _ _
  have hkeys : ((mergeResults groups limit).map Passage.entry).map Prod.fst =
      (ranked.map Passage.chunkId).take limit := by
    rw [List.map_map, mergeResults, List.map_take]
    rfl
  refine ⟨?_, ?_, ?_, ?_, ?_⟩
  · rw [hkeys]
    exact ((hperm.map _).nodup_iff.mpr hkept.keys).sublist (List.take_sublist _ _)
  · rw [List.map_map]
    exact List.pairwise_map.mpr (hsorted.sublist (List.take_sublist _ _))
  · intro entry hentry
    obtain ⟨item, hitem, rfl⟩ := List.mem_map.mp hentry
    have hin := mem_mergeResults hitem
    obtain ⟨hseen, hne⟩ := hkept.seen item hin
    refine ⟨mem_table.mpr ⟨hne, item, hseen, rfl, rfl⟩, fun other hother => ?_⟩
    obtain ⟨-, q, hq, hsame, rfl⟩ := mem_table.mp hother
    exact hkept.greatest item hin q hq hsame
  · rw [List.length_map]
    exact (List.length_take_le _ _)
  · intro key value hbest
    obtain ⟨hne, q, hq, rfl, hvalue⟩ := mem_table.mp hbest.1
    obtain ⟨item, hitem, hsame⟩ := hkept.all q hq hne
    have hentry : (q.chunkId, value) = item.entry := by
      refine Prod.ext hsame.symm (le_antisymm ?_ ?_)
      · rw [← hvalue]
        exact hkept.greatest item hitem q hq hsame.symm
      · exact hbest.2 item.value (mem_table.mpr ⟨hne, item, (hkept.seen item hitem).1, hsame, rfl⟩)
    have hranked : item ∈ ranked := hperm.mem_iff.mpr hitem
    rw [← List.take_append_drop limit ranked, List.mem_append] at hranked
    rcases hranked with htake | hdrop
    · rw [hentry]
      exact .inl (List.mem_map_of_mem htake)
    · refine .inr ⟨?_, ?_⟩
      · have hlong := List.length_pos_of_mem hdrop
        rw [List.length_drop] at hlong
        rw [List.length_map, mergeResults, List.length_take]
        show min limit ranked.length = limit
        omega
      · intro entry hin
        obtain ⟨p, hp, rfl⟩ := List.mem_map.mp hin
        rw [← List.take_append_drop limit ranked] at hsorted
        rw [show value = item.value from congrArg Prod.snd hentry]
        exact (List.pairwise_append.mp hsorted).2.2 p hp item hdrop

/-! ### Group after group -/

omit [LinearOrder σ] in
theorem table_append (items more : List (Passage σ)) :
    table (items ++ more) = table items ++ table more := by
  rw [table, table, table, List.filter_append, List.map_append]

theorem table_mergeResults (groups : List (List (Passage σ))) (limit : Nat) :
    table (mergeResults groups limit) = (mergeResults groups limit).map Passage.entry := by
  rw [table, List.filter_eq_self.mpr]
  intro item hitem
  exact bne_iff_ne.mpr ((kept_distinct _).seen item (mem_mergeResults hitem)).2

theorem mergeOneByOne_append (limit : Nat) (groups : List (List (Passage σ)))
    (group : List (Passage σ)) : mergeOneByOne limit (groups ++ [group]) =
      mergeResults [mergeOneByOne limit groups, group] limit := by
  rw [mergeOneByOne, List.foldl_append]
  rfl

theorem table_mergeOneByOne (limit : Nat) (groups : List (List (Passage σ))) :
    table (mergeOneByOne limit groups) = (mergeOneByOne limit groups).map Passage.entry := by
  induction groups using List.reverseRecOn with
  | nil => rfl
  | append_singleton groups group ih =>
    rw [mergeOneByOne_append]
    exact table_mergeResults _ limit

theorem top_mergeOneByOne (limit : Nat) (groups : List (List (Passage σ))) :
    Top limit (table groups.flatten) ((mergeOneByOne limit groups).map Passage.entry) := by
  induction groups using List.reverseRecOn with
  | nil => exact Top.nil
  | append_singleton groups group ih =>
    have htop := top_mergeResults [mergeOneByOne limit groups, group] limit
    have hmore : table [mergeOneByOne limit groups, group].flatten =
        (mergeOneByOne limit groups).map Passage.entry ++ table group := by
      rw [List.flatten_cons, List.flatten_cons, List.flatten_nil, List.append_nil, table_append,
        table_mergeOneByOne]
    rw [hmore] at htop
    have hall : table (groups ++ [group]).flatten = table groups.flatten ++ table group := by
      rw [List.flatten_append, table_append, List.flatten_cons, List.flatten_nil, List.append_nil]
    rw [hall, mergeOneByOne_append]
    exact ih.step htop

theorem mem_of_mergeOneByOne {limit : Nat} {groups : List (List (Passage σ))} {item : Passage σ}
    (h : item ∈ mergeOneByOne limit groups) : item ∈ groups.flatten := by
  induction groups using List.reverseRecOn with
  | nil => cases h
  | append_singleton groups group ih =>
    rw [mergeOneByOne_append] at h
    have hin := ((kept_distinct _).seen item (mem_mergeResults h)).1
    rw [List.flatten_cons, List.flatten_cons, List.flatten_nil, List.append_nil] at hin
    rw [List.flatten_append, List.mem_append, List.flatten_cons, List.flatten_nil, List.append_nil]
    exact (List.mem_append.mp hin).imp ih id

/-- What a list of merged passages keeps of the groups: as many chunks as the limit allows, those of
the best scores. -/
structure Merged (limit : Nat) (groups : List (List (Passage σ))) (merged : List (Passage σ)) :
    Prop where
  top : Top limit (table groups.flatten) (merged.map Passage.entry)
  once : (merged.map Passage.chunkId).Nodup
  found : ∀ item ∈ merged, item ∈ groups.flatten
  best : ∀ item ∈ merged, ∀ group ∈ groups, ∀ other ∈ group, other.chunkId = item.chunkId →
    other.value ≤ item.value
  sorted : (merged.map Passage.value).Pairwise fun a b => b ≤ a

theorem Merged.of_top {groups : List (List (Passage σ))} {merged : List (Passage σ)} {limit : Nat}
    (h : Top limit (table groups.flatten) (merged.map Passage.entry))
    (hfound : ∀ item ∈ merged, item ∈ groups.flatten) : Merged limit groups merged := by
  refine ⟨h, ?_, hfound, ?_, ?_⟩
  · have hkeys := h.keys
    rw [List.map_map] at hkeys
    exact hkeys
  · intro item hitem group hgroup other hother hsame
    obtain ⟨hmem, hmax⟩ := h.best item.entry (List.mem_map_of_mem hitem)
    exact hmax other.value (mem_table.mpr ⟨(mem_table.mp hmem).1, other,
      List.mem_flatten.mpr ⟨group, hgroup, hother⟩, hsame, rfl⟩)
  · have hsorted := h.sorted
    rw [List.map_map] at hsorted
    exact hsorted

/-- **Merging one group after the other keeps the top of the list.** -/
theorem merge_lossless (groups : List (List (Passage σ))) (limit : Nat) :
    (mergeOneByOne limit groups).map Passage.value =
        (mergeResults groups limit).map Passage.value ∧
      Merged limit groups (mergeOneByOne limit groups) ∧
        Merged limit groups (mergeResults groups limit) := by
  have hone := top_mergeOneByOne limit groups
  have hall := top_mergeResults groups limit
  refine ⟨?_, Merged.of_top hone fun item => mem_of_mergeOneByOne, Merged.of_top hall ?_⟩
  · have hvalues := hone.values_unique hall
    rw [List.map_map, List.map_map] at hvalues
    exact hvalues
  · intro item hitem
    exact ((kept_distinct _).seen item (mem_mergeResults hitem)).1

end QnscKb.Retrieval
