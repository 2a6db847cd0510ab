import QnscKb.Lib.Groups
import QnscKb.Listing.Paging

/-!
# Listing — Catalog

The counts of `/catalog` (`knowledge_catalog` of `src/api/routers/knowledge.py`) beside the totals
of `/browse`, which they should be, under names of their own (`Shown`).  Departments are grouped by
an article's primary one, where browsing also shows shared articles, and the articles without a tag
stand under a name a tag may have.
-/

namespace QnscKb.Listing
open QnscKb.Access QnscKb.Where QnscKb.Groups

/-! ### The counts -/

structure CatalogItem where
  name : String
  count : Nat
  deriving DecidableEq

structure Catalog where
  total : Nat
  departments : List CatalogItem
  topics : List CatalogItem

/-- `order_by(count.desc(), name.asc())`; `collate` is how the database orders names. -/
def ranked (collate : String → String → Bool) (rows : List (String × Nat)) : List (String × Nat) :=
  rows.insertionSort fun a b => (decide (b.2 < a.2) || decide (a.2 = b.2) && collate a.1 b.1) = true

section Catalog

variable (ilike collate : String → String → Bool) (lib : Library) (u : User)

def found (dept q : Option String) : List ListedArticle :=
  select (browseFilters ilike lib u dept none q) lib.articles

/-- `department_items`, which span every department. -/
def departmentItems (q : Option String) : List CatalogItem :=
  (ranked collate (groupBy (·.dept) List.length (found ilike lib u none q))).map fun row =>
    ⟨if row.1 = "" then "Unassigned" else row.1, row.2⟩

/-- `ArticleTag` joined to the articles in view. -/
def tagged (dept q : Option String) : List (ListedArticle × String) :=
  (joinEach (·.tags) lib.articles).filter fun row =>
    admits (browseFilters ilike lib u dept none q) row.1

def namedTopics (dept q : Option String) : List CatalogItem :=
  ((ranked collate (groupBy Prod.snd (distinct (·.1.id)) (tagged ilike lib u dept q))).filter
    fun row => row.1 ≠ "").map fun row => ⟨row.1, row.2⟩

/-- `topic_items`: the bucket of the articles without a tag stands at the end. -/
def topicItems (dept q : Option String) : List CatalogItem :=
  let total := total (browseFilters ilike lib u dept none q) lib.articles
  let taggedTotal := distinct (·.1.id) (tagged ilike lib u dept q)
  namedTopics ilike collate lib u dept q ++
    if total > taggedTotal then [⟨"General knowledge", total - taggedTotal⟩] else []

def knowledgeCatalog (dept q : Option String) : Catalog where
  total := total (browseFilters ilike lib u dept none q) lib.articles
  departments := departmentItems ilike collate lib u q
  topics := topicItems ilike collate lib u dept q

end Catalog

section Property

variable (ilike collate : String → String → Bool) (lib : Library) (u : User)

/-- The total `/browse` reports, whatever page it is asked for. -/
def Reports (dept topic q : Option String) (n : Nat) : Prop :=
  ∀ (order : List ListedArticle → List ListedArticle) (limit offset : Nat),
    (browseKnowledge ilike lib u order dept topic q limit offset).total = n

/-- What the catalog counts is what browsing shows, and no name occurs twice. -/
structure Shown (dept q : Option String) (catalog : Catalog) : Prop where
  departments : ∀ item ∈ catalog.departments,
    Reports ilike lib u (some item.name) none q item.count
  topics : ∀ item ∈ catalog.topics, Reports ilike lib u dept (some item.name) q item.count
  departmentNames : (catalog.departments.map (·.name)).Nodup
  topicNames : (catalog.topics.map (·.name)).Nodup

/-- No article in view is shared with a department that is another one's, and not its own. -/
def Unshared (q : Option String) : Prop :=
  ∀ a ∈ found ilike lib u none q, ∀ b ∈ found ilike lib u none q,
    (b.departments.any fun d => d.name == a.dept) = true → b.dept = a.dept

/-- No article in view carries the name of the bucket as a tag. -/
def Unnamed (dept q : Option String) : Prop :=
  ∀ a ∈ found ilike lib u dept q, "General knowledge" ∉ a.tags

end Property

/-! ### Filters -/

section Filters

variable (ilike : String → String → Bool) (lib : Library) (u : User)

theorem reports_iff (dept topic q : Option String) (n : Nat) :
    Reports ilike lib u dept topic q n ↔
      total (browseFilters ilike lib u dept topic q) lib.articles = n :=
  ⟨fun h => h id 0 0, fun h _ _ _ => h⟩

theorem admits_browseFilters_dept {name : String} (hname : name ≠ "") (q : Option String)
    (a : ListedArticle) : admits (browseFilters ilike lib u (some name) none q) a =
      (admits (browseFilters ilike lib u none none q) a && inDepartment name a) := by
  simp only [browseFilters, whenGiven, if_neg hname, admits_append, admits_cons, admits_nil,
    Bool.and_true]
  exact Bool.and_right_comm _ _ _

theorem admits_browseFilters_topic {name : String} (hname : name ≠ "") (dept q : Option String)
    (a : ListedArticle) : admits (browseFilters ilike lib u dept (some name) q) a =
      (admits (browseFilters ilike lib u dept none q) a && onTopic name a) := by
  simp only [browseFilters, whenGiven, if_neg hname, admits_append, admits_cons, admits_nil,
    Bool.and_true]
  exact Bool.and_right_comm _ _ _

theorem admits_authorizedFilters (a : ListedArticle) :
    admits (authorizedFilters lib u) a = listAdmits lib.departments u a.toArticle := by
  rw [authorizedFilters, admits, List.all_map]
  rfl

variable {ilike lib u}

theorem dept_ne_empty {dept q : Option String} {a : ListedArticle}
    (h : a ∈ found ilike lib u dept q) : a.dept ≠ "" := by
  have hadmits := (mem_select.mp h).2
  rw [browseFilters, admits_append, admits_append, admits_append, admits_append,
    admits_authorizedFilters, listAdmits_eq] at hadmits
  simp only [Bool.and_eq_true] at hadmits
  obtain ⟨d, -, hd⟩ := List.any_eq_true.mp hadmits.1.1.1.1.1.1.1.1.1.2
  simp only [Bool.and_eq_true, beq_iff_eq] at hd
  rw [← hd.1.2]
  exact d.name_ne_empty

theorem mem_ranked {collate : String → String → Bool} {rows : List (String × Nat)}
    {row : String × Nat} : row ∈ ranked collate rows ↔ row ∈ rows :=
  List.mem_insertionSort _

theorem ranked_keys_nodup {collate : String → String → Bool} {rows : List (String × Nat)}
    (h : (rows.map Prod.fst).Nodup) : ((ranked collate rows).map Prod.fst).Nodup :=
  ((List.perm_insertionSort _ rows).map Prod.fst).nodup_iff.mpr h

end Filters

/-! ### Departments -/

def primaryTotal (ilike : String → String → Bool) (lib : Library) (u : User) (q : Option String)
    (name : String) : Nat :=
  total (browseFilters ilike lib u none none q ++ [fun a => decide (a.dept = name)]) lib.articles

section Departments

variable {ilike collate : String → String → Bool} {lib : Library} {u : User} {q : Option String}

theorem mem_departmentItems {item : CatalogItem} :
    item ∈ departmentItems ilike collate lib u q ↔ ∃ a ∈ found ilike lib u none q,
      item = ⟨a.dept, primaryTotal ilike lib u q a.dept⟩ := by
  simp only [departmentItems, List.mem_map, mem_ranked]
  constructor
  · rintro ⟨⟨name, count⟩, hrow, rfl⟩
    obtain ⟨⟨a, ha, rfl⟩, rfl⟩ := mem_groupBy.mp hrow
    refine ⟨a, ha, ?_⟩
    rw [if_neg (dept_ne_empty ha), primaryTotal, total, ← select_filter, found]
  · rintro ⟨a, ha, rfl⟩
    refine ⟨(a.dept, _), mem_groupBy.mpr ⟨⟨a, ha, rfl⟩, rfl⟩, ?_⟩
    rw [if_neg (dept_ne_empty ha), primaryTotal, total, ← select_filter, found]

theorem departmentItems_names_nodup :
    ((departmentItems ilike collate lib u q).map (·.name)).Nodup := by
  have hnames : (departmentItems ilike collate lib u q).map (·.name) =
      (ranked collate (groupBy (·.dept) List.length (found ilike lib u none q))).map Prod.fst := by
    rw [departmentItems, List.map_map]
    refine List.map_congr_left fun row hrow => ?_
    obtain ⟨⟨a, ha, hname⟩, -⟩ := mem_groupBy.mp (mem_ranked.mp hrow)
    exact if_neg (hname ▸ dept_ne_empty ha)
  rw [hnames]
  exact ranked_keys_nodup groupBy_keys_nodup

theorem department_shown_iff {a : ListedArticle} (ha : a ∈ found ilike lib u none q) :
    Reports ilike lib u (some a.dept) none q (primaryTotal ilike lib u q a.dept) ↔
      ∀ b ∈ found ilike lib u none q, (b.departments.any fun d => d.name == a.dept) = true →
        b.dept = a.dept := by
  have hadmits := admits_browseFilters_dept ilike lib u (dept_ne_empty ha) q
  rw [reports_iff, eq_comm, primaryTotal, total_eq_iff_of_imp]
  · constructor
    · intro h b hb hshared
      obtain ⟨hmem, hview⟩ := mem_select.mp hb
      have hcounted := h b hmem (by rw [hadmits, hview, inDepartment, hshared]; simp)
      rw [admits_append, admits_cons, admits_nil, Bool.and_true, Bool.and_eq_true,
        decide_eq_true_iff] at hcounted
      exact hcounted.2
    · intro h b hmem hshown
      rw [hadmits, Bool.and_eq_true, inDepartment, Bool.or_eq_true, beq_iff_eq] at hshown
      have hdept : b.dept = a.dept :=
        hshown.2.elim id (h b (mem_select.mpr ⟨hmem, hshown.1⟩))
      rw [admits_append, hshown.1, admits_cons, hdept]
      simp
  · intro b _ hcounted
    rw [admits_append, admits_cons, admits_nil, Bool.and_true, Bool.and_eq_true,
      decide_eq_true_iff] at hcounted
    rw [hadmits, hcounted.1, inDepartment, hcounted.2]
    simp

/-- **The departments' counts are shown** when no article in view is shared with the department
of another one. -/
theorem departments_shown_iff (collate : String → String → Bool) :
    (∀ item ∈ departmentItems ilike collate lib u q,
        Reports ilike lib u (some item.name) none q item.count) ↔ Unshared ilike lib u q := by
  constructor
  · intro h a ha
    exact (department_shown_iff ha).mp
      (h ⟨a.dept, primaryTotal ilike lib u q a.dept⟩ (mem_departmentItems.mpr ⟨a, ha, rfl⟩))
  · intro h item hitem
    obtain ⟨a, ha, rfl⟩ := mem_departmentItems.mp hitem
    exact (department_shown_iff ha).mpr (h a ha)

end Departments

/-! ### Topics -/

def topicTotal (ilike : String → String → Bool) (lib : Library) (u : User) (dept q : Option String)
    (name : String) : Nat :=
  total (browseFilters ilike lib u dept none q ++ [fun a => a.tags.contains name]) lib.articles

def untaggedTotal (ilike : String → String → Bool) (lib : Library) (u : User)
    (dept q : Option String) : Nat :=
  total (browseFilters ilike lib u dept none q ++ [fun a => a.tags.isEmpty]) lib.articles

section Topics

variable {ilike collate : String → String → Bool} {lib : Library} {u : User}
  {dept q : Option String}

theorem mem_tagged {row : ListedArticle × String} :
    row ∈ tagged ilike lib u dept q ↔ row.1 ∈ found ilike lib u dept q ∧ row.2 ∈ row.1.tags := by
  rw [tagged, List.mem_filter, mem_joinEach, found, mem_select]
  exact and_right_comm

theorem distinct_tagged (name : String) :
    distinct (·.1.id) ((tagged ilike lib u dept q).filter fun row => decide (row.2 = name)) =
      topicTotal ilike lib u dept q name := by
  rw [tagged, List.filter_filter, distinct_joinEach lib.articleIds, topicTotal, total_eq_countP]
  refine List.countP_congr fun a _ => ?_
  simp only [admits_append, admits_cons, admits_nil, List.any_eq_true, Bool.and_eq_true,
    decide_eq_true_iff, List.contains_iff_mem, Bool.and_true]
  constructor
  · rintro ⟨tag, htag, rfl, hview⟩
    exact ⟨hview, htag⟩
  · rintro ⟨hview, htag⟩
    exact ⟨name, htag, rfl, hview⟩

theorem total_sub_tagged :
    total (browseFilters ilike lib u dept none q) lib.articles -
        distinct (·.1.id) (tagged ilike lib u dept q) = untaggedTotal ilike lib u dept q := by
  have hsplit : total (browseFilters ilike lib u dept none q) lib.articles =
      distinct (·.1.id) (tagged ilike lib u dept q) + untaggedTotal ilike lib u dept q := by
    rw [tagged, distinct_joinEach lib.articleIds, total_eq_countP, untaggedTotal, total_eq_countP,
      List.countP_eq_countP_filter_add lib.articles _ (fun a => !a.tags.isEmpty),
      List.countP_filter, List.countP_filter]
    congr 1
    · refine List.countP_congr fun a _ => ?_
      cases a.tags <;> simp
    · refine List.countP_congr fun a _ => ?_
      simp
  rw [hsplit, Nat.add_sub_cancel_left]

theorem mem_namedTopics {item : CatalogItem} :
    item ∈ namedTopics ilike collate lib u dept q ↔
      ∃ name, name ≠ "" ∧ (∃ a ∈ found ilike lib u dept q, name ∈ a.tags) ∧
        item = ⟨name, topicTotal ilike lib u dept q name⟩ := by
  simp only [namedTopics, List.mem_map, List.mem_filter, mem_ranked, decide_eq_true_iff]
  constructor
  · rintro ⟨⟨name, count⟩, ⟨hrow, hname⟩, rfl⟩
    obtain ⟨⟨row, hmem, rfl⟩, rfl⟩ := mem_groupBy.mp hrow
    obtain ⟨hview, htag⟩ := mem_tagged.mp hmem
    exact ⟨row.2, hname, ⟨row.1, hview, htag⟩, by rw [distinct_tagged]⟩
  · rintro ⟨name, hname, ⟨a, hview, htag⟩, rfl⟩
    refine ⟨(name, topicTotal ilike lib u dept q name), ⟨mem_groupBy.mpr ⟨?_, ?_⟩, hname⟩, rfl⟩
    · exact ⟨(a, name), mem_tagged.mpr ⟨hview, htag⟩, rfl⟩
    · rw [distinct_tagged]

theorem namedTopics_names_nodup :
    ((namedTopics ilike collate lib u dept q).map (·.name)).Nodup := by
  rw [namedTopics, List.map_map]
  exact (ranked_keys_nodup groupBy_keys_nodup).sublist (List.filter_sublist.map Prod.fst)

theorem topicItems_eq : topicItems ilike collate lib u dept q =
    namedTopics ilike collate lib u dept q ++
      if 0 < untaggedTotal ilike lib u dept q then
        [⟨"General knowledge", untaggedTotal ilike lib u dept q⟩] else [] := by
  rw [topicItems, total_sub_tagged]
  have hbucket : total (browseFilters ilike lib u dept none q) lib.articles >
      distinct (·.1.id) (tagged ilike lib u dept q) ↔ 0 < untaggedTotal ilike lib u dept q := by
    rw [← total_sub_tagged, Nat.sub_pos_iff_lt]
  simp only [hbucket]

theorem reports_topic {name : String} (hname : name ≠ "") (hbucket : name ≠ "General knowledge") :
    Reports ilike lib u dept (some name) q (topicTotal ilike lib u dept q name) := by
  rw [reports_iff, total_eq_countP, topicTotal, total_eq_countP]
  refine List.countP_congr fun a _ => ?_
  rw [admits_browseFilters_topic ilike lib u hname, onTopic, if_neg hbucket, admits_append,
    admits_cons, admits_nil, Bool.and_true]

theorem reports_bucket (n : Nat) : Reports ilike lib u dept (some "General knowledge") q n ↔
    untaggedTotal ilike lib u dept q = n := by
  have hbrowsed : total (browseFilters ilike lib u dept (some "General knowledge") q) lib.articles =
      untaggedTotal ilike lib u dept q := by
    rw [total_eq_countP, untaggedTotal, total_eq_countP]
    refine List.countP_congr fun a _ => ?_
    rw [admits_browseFilters_topic ilike lib u (by decide), onTopic, if_pos rfl, admits_append,
      admits_cons, admits_nil, Bool.and_true]
  rw [reports_iff, hbrowsed]

theorem topicTotal_pos {a : ListedArticle} {name : String} (ha : a ∈ found ilike lib u dept q)
    (htag : name ∈ a.tags) : 0 < topicTotal ilike lib u dept q name := by
  rw [topicTotal, total, ← select_filter, List.length_pos_iff_exists_mem]
  exact ⟨a, List.mem_filter.mpr ⟨ha, List.contains_iff_mem.mpr htag⟩⟩

theorem Unnamed.item_ne (h : Unnamed ilike lib u dept q) {item : CatalogItem}
    (hitem : item ∈ namedTopics ilike collate lib u dept q) : item.name ≠ "General knowledge" := by
  intro hbucket
  obtain ⟨name, -, ⟨a, ha, htag⟩, rfl⟩ := mem_namedTopics.mp hitem
  exact h a ha (hbucket ▸ htag)

/-- **The topics' counts are shown**, under different names, when no article in view carries the
tag `General knowledge`. -/
theorem topics_shown_iff (collate : String → String → Bool) :
    ((∀ item ∈ topicItems ilike collate lib u dept q,
        Reports ilike lib u dept (some item.name) q item.count) ∧
      ((topicItems ilike collate lib u dept q).map (·.name)).Nodup) ↔
      Unnamed ilike lib u dept q := by
  rw [topicItems_eq, List.map_append]
  constructor
  · rintro ⟨hreports, hnames⟩ a ha htag
    -- the tag's item and the bucket would have one name
    obtain ⟨item, hitem, hname, hvalue⟩ : ∃ item ∈ namedTopics ilike collate lib u dept q,
        item.name = "General knowledge" ∧
          item.count = topicTotal ilike lib u dept q "General knowledge" :=
      ⟨_, mem_namedTopics.mpr ⟨"General knowledge", by decide, ⟨a, ha, htag⟩, rfl⟩, rfl, rfl⟩
    have hreport := hreports item (List.mem_append_left _ hitem)
    rw [hname, reports_bucket, hvalue] at hreport
    rw [if_pos (hreport ▸ topicTotal_pos ha htag)] at hnames
    exact (List.nodup_append.mp hnames).2.2 item.name (List.mem_map_of_mem hitem)
      "General knowledge" List.mem_cons_self hname
  · intro h
    refine ⟨fun item hitem => ?_, ?_⟩
    · rcases List.mem_append.mp hitem with hitem | hitem
      · have hbucket := h.item_ne hitem
        obtain ⟨name, hname, -, rfl⟩ := mem_namedTopics.mp hitem
        exact reports_topic hname hbucket
      · split_ifs at hitem with hsome
        · rw [List.mem_singleton.mp hitem]
          exact (reports_bucket _).mpr rfl
        · cases hitem
    · split_ifs with hsome
      · refine List.nodup_append.mpr ⟨namedTopics_names_nodup, List.nodup_singleton _, ?_⟩
        rintro name hname other hitem rfl
        obtain ⟨item, hmem, rfl⟩ := List.mem_map.mp hname
        exact h.item_ne hmem (List.mem_singleton.mp hitem)
      · rw [List.map_nil, List.append_nil]
        exact namedTopics_names_nodup

end Topics

/-- **The catalog's counts are what browsing shows** when no article in view is shared with another
department and none carries the tag `General knowledge`. -/
theorem catalog_shown_iff (ilike collate : String → String → Bool) (lib : Library) (u : User)
    (dept q : Option String) :
    Shown ilike lib u dept q (knowledgeCatalog ilike collate lib u dept q) ↔
      Unshared ilike lib u q ∧ Unnamed ilike lib u dept q := by
  rw [← departments_shown_iff collate, ← topics_shown_iff collate]
  constructor
  · intro h
    exact ⟨h.departments, h.topics, h.topicNames⟩
  · rintro ⟨hdepartments, htopics, hnames⟩
    exact ⟨hdepartments, htopics, departmentItems_names_nodup, hnames⟩

def sharedLibrary : Library where
  departments := [engineering, finance]
  articles := [{ importedArticle 1000 with departments := [finance] },
    { importedArticle 1001 with dept := "Engineering", departments := [engineering, finance] }]
  articleIds := by decide
  sources := []
  sourceIds := List.nodup_nil
  drafts := ⟨[], List.nodup_nil⟩

/-- **The catalog counts one article of Finance**, where browsing shows two. -/
theorem shared_article_uncounted :
    ¬Shown (fun _ _ => false) sharedLibrary engineer none none
      (knowledgeCatalog (fun _ _ => false) (fun _ _ => true) sharedLibrary engineer none none) := by
  intro h
  have htotal := h.departments ⟨"Finance", 1⟩ (by decide +kernel) id 1 0
  revert htotal
  decide +kernel

end QnscKb.Listing
