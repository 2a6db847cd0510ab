import Mathlib.Algebra.GroupWithZero.Nat
import Mathlib.Order.MinMax
import QnscKb.Retrieval.Agentic

/-!
# Retrieval — Sufficient

Whether a retrieval that is reported sufficient is sufficient, for each sub-question, in the list it
returns.
-/

namespace QnscKb.Retrieval

variable {σ : Type} [LinearOrder σ] [Zero σ]

/-- The returned list holds a passage that was found for the sub-question, at or above the line. -/
def Backed (minScore : σ) (results : List (Passage σ)) (group : Group σ) : Prop :=
  ∃ item ∈ results, minScore ≤ item.value ∧
    ∃ found ∈ group.found.flatten, found.chunkId = item.chunkId ∧ minScore ≤ found.value

instance (minScore : σ) (results : List (Passage σ)) (group : Group σ) :
    Decidable (Backed minScore results group) :=
  inferInstanceAs (Decidable (∃ item ∈ results, minScore ≤ item.value ∧
    ∃ found ∈ group.found.flatten, found.chunkId = item.chunkId ∧ minScore ≤ found.value))

/-- The passages the last merge is made of, in the order it meets them. -/
def dictionary (limit : Nat) (groups : List (Group σ)) : List (Passage σ) :=
  distinct (groups.map fun group => mergeOneByOne limit group.found).flatten

/-- Fewer than `limit` passages are ahead of one that was found for the sub-question, at or above
the line. -/
def InPlace (limit : Nat) (minScore : σ) (groups : List (Group σ)) (group : Group σ) : Prop :=
  ∃ item ∈ dictionary limit groups, ahead Passage.value (dictionary limit groups) item < limit ∧
    ∃ found ∈ group.found.flatten, found.chunkId = item.chunkId ∧ minScore ≤ found.value

/-- The searches for a sub-question returned some passage; one without an id is none. -/
def Hit (group : Group σ) : Prop := ∃ found ∈ group.found.flatten, found.chunkId ≠ ""

/-- The searches for a sub-question returned a passage at or above the line.  Without any passage the
best score counts as zero. -/
def Solid (minScore : σ) (group : Group σ) : Prop :=
  (∃ found ∈ group.found.flatten, found.chunkId ≠ "" ∧ minScore ≤ found.value) ∨
    ¬Hit group ∧ minScore ≤ 0

/-! ### What is covered -/

omit [Zero σ] in
theorem le_foldl_max {α : Type} (f : α → σ) (items : List α) (start value : σ) :
    value ≤ items.foldl (fun best item => max best (f item)) start ↔
      value ≤ start ∨ ∃ item ∈ items, value ≤ f item := by
  induction items generalizing start with
  | nil => simp
  | cons item items ih =>
    rw [List.foldl_cons, ih, le_max_iff, or_assoc]
    simp only [List.mem_cons, exists_eq_or_imp]

theorem Group.covered_iff_best (group : Group σ) (minScore : σ) :
    group.covered minScore = true ↔ (∃ item ∈ group.results, minScore ≤ item.value) ∨
      group.results = [] ∧ minScore ≤ 0 := by
  rw [Group.covered, decide_eq_true_eq, Group.best]
  cases group.results with
  | nil => simp
  | cons item rest =>
    rw [le_foldl_max]
    simp

variable {s : Services σ}

variable {group : Group σ}

theorem Services.Holds.top (h : s.Holds group) :
    Top s.rerankLimit (table group.found.flatten) (group.results.map Passage.entry) :=
  h ▸ top_mergeOneByOne s.rerankLimit group.found

omit [Zero σ] in
theorem Top.exists_le {κ : Type} {n : Nat} {entries top : List (κ × σ)} (h : Top n entries top)
    (hn : n ≠ 0) {key : κ} {value : σ} (hmem : (key, value) ∈ entries) :
    ∃ entry ∈ top, value ≤ entry.2 := by
  obtain ⟨best, hbest, hge⟩ := exists_best hmem
  rcases h.full key best hbest with hin | ⟨hlength, hle⟩
  · exact ⟨_, hin, hge⟩
  · cases top with
    | nil => exact absurd hlength.symm hn
    | cons entry top =>
      exact ⟨entry, List.mem_cons_self .., hge.trans (hle entry (List.mem_cons_self ..))⟩

theorem exists_le_of_top {found items : List (Passage σ)} {n : Nat} (hn : n ≠ 0)
    (h : Top n (table found) (items.map Passage.entry)) {p : Passage σ} (hp : p ∈ found)
    (hid : p.chunkId ≠ "") : ∃ item ∈ items, p.value ≤ item.value := by
  obtain ⟨entry, hentry, hle⟩ := Top.exists_le h hn (mem_table.mpr ⟨hid, p, hp, rfl, rfl⟩)
  obtain ⟨item, hitem, rfl⟩ := List.mem_map.mp hentry
  exact ⟨item, hitem, hle⟩

theorem exists_found_of_top {found items : List (Passage σ)} {n : Nat}
    (h : Top n (table found) (items.map Passage.entry)) {item : Passage σ} (hitem : item ∈ items) :
    item.chunkId ≠ "" ∧ ∃ p ∈ found, p.chunkId = item.chunkId ∧ p.value = item.value :=
  mem_table.mp (h.best item.entry (List.mem_map_of_mem hitem)).1

/-- **The cut after each search changes nothing about whether a sub-question is covered.** -/
theorem Group.covered_iff (h : s.Holds group) (hlimit : s.rerankLimit ≠ 0) :
    group.covered s.minContextScore = true ↔ Solid s.minContextScore group := by
  have hempty : group.results = [] ↔ ¬Hit group := by
    constructor
    · rintro hnone ⟨p, hp, hid⟩
      obtain ⟨item, hitem, -⟩ := exists_le_of_top hlimit h.top hp hid
      rw [hnone] at hitem
      cases hitem
    · intro hnone
      refine List.eq_nil_iff_forall_not_mem.mpr fun item hitem => hnone ?_
      obtain ⟨hid, p, hp, heq, -⟩ := exists_found_of_top h.top hitem
      exact ⟨p, hp, heq ▸ hid⟩
  rw [Group.covered_iff_best, hempty]
  refine or_congr_left ⟨?_, ?_⟩
  · rintro ⟨item, hitem, hge⟩
    obtain ⟨hid, p, hp, heq, hvalue⟩ := exists_found_of_top h.top hitem
    exact ⟨p, hp, heq ▸ hid, hvalue ▸ hge⟩
  · rintro ⟨p, hp, hid, hge⟩
    obtain ⟨item, hitem, hle⟩ := exists_le_of_top hlimit h.top hp hid
    exact ⟨item, hitem, hge.trans hle⟩

/-! ### What is returned -/

theorem results_perm (plan : AgentPlan) (groups : List (Group σ)) :
    (s.results plan groups).Perm (mergeResults (groups.map Group.results) s.rerankLimit) := by
  cases hasOf : plan.asOf with
  | none => rw [Services.results, hasOf]
  | some asOf =>
    rw [Services.results, hasOf]
    dsimp only
    split_ifs
    · exact applyTimeFocus_perm _ _ _
    · exact .refl _

variable {groups : List (Group σ)}

theorem map_results (h : ∀ group ∈ groups, s.Holds group) :
    groups.map Group.results = groups.map fun group => mergeOneByOne s.rerankLimit group.found :=
  List.map_congr_left h

omit [LinearOrder σ] in
theorem table_flatten {ι : Type} (f : ι → List (Passage σ)) (ids : List ι) :
    table (ids.map f).flatten = ids.flatMap fun i => table (f i) := by
  induction ids with
  | nil => rfl
  | cons i ids ih => rw [List.map_cons, List.flatten_cons, table_append, ih, List.flatMap_cons]

theorem top_results (h : ∀ group ∈ groups, s.Holds group) :
    Top s.rerankLimit (table (groups.map fun group => group.found.flatten).flatten)
      ((mergeResults (groups.map Group.results) s.rerankLimit).map Passage.entry) := by
  have hmerged := top_mergeResults (groups.map Group.results) s.rerankLimit
  rw [table_flatten] at hmerged
  rw [table_flatten, ← List.nil_append (List.flatMap _ _)]
  refine Top.flatten (fun group hgroup => ?_) hmerged
  have htable : table group.results = group.results.map Passage.entry := by
    rw [h group hgroup]
    exact table_mergeOneByOne _ _
  exact htable ▸ (h group hgroup).top

theorem mem_mergeResults_iff (h : ∀ group ∈ groups, s.Holds group) (item : Passage σ) :
    item ∈ mergeResults (groups.map Group.results) s.rerankLimit ↔
      item ∈ dictionary s.rerankLimit groups ∧
        ahead Passage.value (dictionary s.rerankLimit groups) item < s.rerankLimit := by
  rw [mergeResults, map_results h]
  change item ∈ (List.insertionSort _ (dictionary s.rerankLimit groups)).take _ ↔ _
  have hnodup : (dictionary s.rerankLimit groups).Nodup := (kept_distinct _).keys.of_map _
  constructor
  · intro hin
    have hmem := (List.mem_insertionSort _).mp (List.mem_of_mem_take hin)
    exact ⟨hmem, (mem_take_insertionSort_iff hnodup hmem _).mp hin⟩
  · rintro ⟨hmem, hahead⟩
    exact (mem_take_insertionSort_iff hnodup hmem _).mpr hahead

theorem backed_iff (plan : AgentPlan) (h : ∀ group ∈ groups, s.Holds group)
    (hgroup : group ∈ groups) :
    Backed s.minContextScore (s.results plan groups) group ↔
      InPlace s.rerankLimit s.minContextScore groups group := by
  constructor
  · rintro ⟨item, hitem, -, hfound⟩
    obtain ⟨hmem, hahead⟩ :=
      (mem_mergeResults_iff h item).mp ((results_perm plan groups).mem_iff.mp hitem)
    exact ⟨item, hmem, hahead, hfound⟩
  · rintro ⟨item, hmem, hahead, found, hfound, hsame, hge⟩
    have hmerged := (mem_mergeResults_iff h item).mpr ⟨hmem, hahead⟩
    obtain ⟨hin, hmax⟩ := (top_results h).best item.entry (List.mem_map_of_mem hmerged)
    refine ⟨item, (results_perm plan groups).mem_iff.mpr hmerged, hge.trans ?_, found, hfound,
      hsame, hge⟩
    refine hmax found.value (mem_table.mpr ⟨(mem_table.mp hin).1, found, ?_, hsame, rfl⟩)
    exact List.mem_flatten.mpr ⟨_, List.mem_map_of_mem hgroup, hfound⟩

theorem results_ne_nil_iff (plan : AgentPlan) (h : ∀ group ∈ groups, s.Holds group) :
    s.results plan groups ≠ [] ↔
      s.rerankLimit ≠ 0 ∧ ∃ group ∈ groups, Hit group := by
  have hperm := results_perm (s := s) plan groups
  rw [← List.length_pos_iff, hperm.length_eq, List.length_pos_iff_exists_mem]
  constructor
  · rintro ⟨item, hitem⟩
    obtain ⟨hid, p, hp, heq, -⟩ := exists_found_of_top (top_results h) hitem
    obtain ⟨found, hfound, hpfound⟩ := List.mem_flatten.mp hp
    obtain ⟨group, hgroup, rfl⟩ := List.mem_map.mp hfound
    refine ⟨fun hzero => ?_, group, hgroup, p, hpfound, heq ▸ hid⟩
    have hahead := ((mem_mergeResults_iff h item).mp hitem).2
    exact Nat.not_lt_zero _ (hzero ▸ hahead)
  · rintro ⟨hlimit, group, hgroup, p, hp, hid⟩
    have hall : p ∈ (groups.map fun group => group.found.flatten).flatten :=
      List.mem_flatten.mpr ⟨_, List.mem_map_of_mem hgroup, hp⟩
    obtain ⟨item, hitem, -⟩ := exists_le_of_top hlimit (top_results h) hall hid
    exact ⟨item, hitem⟩

/-- **When a sufficient retrieval is one.**  The last cut must leave a passage of every sub-question
that is covered. -/
theorem sufficient_backed_iff (s : Services σ) (plan : AgentPlan) (question : Text)
    (budget : Nat) :
    ((s.agenticRetrieve plan question budget).sufficient = true →
      ∀ group ∈ (s.searched plan question budget).1,
        Backed s.minContextScore (s.agenticRetrieve plan question budget).results group) ↔
    (s.rerankLimit ≠ 0 → (∃ group ∈ (s.searched plan question budget).1, Hit group) →
      (∀ group ∈ (s.searched plan question budget).1, Solid s.minContextScore group) →
      ∀ group ∈ (s.searched plan question budget).1,
        InPlace s.rerankLimit s.minContextScore (s.searched plan question budget).1 group) := by
  have hholds := s.searched_merged plan question budget
  have hsufficient : (s.agenticRetrieve plan question budget).sufficient = true ↔
      s.results plan (s.searched plan question budget).1 ≠ [] ∧
        ∀ group ∈ (s.searched plan question budget).1, group.covered s.minContextScore = true := by
    simp [Services.agenticRetrieve]
  rw [hsufficient, results_ne_nil_iff plan hholds, and_imp, and_imp]
  refine imp_congr_right fun hlimit => imp_congr_right fun _ => imp_congr ?_ ?_
  · exact forall₂_congr fun group hgroup => Group.covered_iff (hholds group hgroup) hlimit
  · exact forall₂_congr fun group hgroup => backed_iff plan hholds hgroup

def crowded : Services Nat where
  rerankLimit := 2
  minContextScore := 35
  maxRounds := 2
  temporal := false
  search _ query _ :=
    if query = ['A'] then ⟨[⟨"a1", "leave", some 90⟩, ⟨"a2", "leave", some 80⟩], false⟩
    else ⟨[⟨"b1", "travel", some 40⟩], false⟩
  reply _ _ := none
  casefold := id
  round := id
  parseAsOf _ := none
  dates := none

def twoQuestions : AgentPlan := ⟨[['A'], ['B']], [], [], none⟩

/-- The second question's only passage, solid as it is, is not in the list. -/
theorem covered_then_cut :
    (crowded.agenticRetrieve twoQuestions [] 1).sufficient = true ∧
      (crowded.agenticRetrieve twoQuestions [] 1).results =
        [⟨"a1", "leave", some 90⟩, ⟨"a2", "leave", some 80⟩] ∧
      ¬∀ group ∈ (crowded.searched twoQuestions [] 1).1,
        Backed crowded.minContextScore (crowded.agenticRetrieve twoQuestions [] 1).results group := by
  exact ⟨rfl, rfl, by decide⟩

end QnscKb.Retrieval
