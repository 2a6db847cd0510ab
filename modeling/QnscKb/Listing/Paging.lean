import QnscKb.Access.Agreement
import QnscKb.Lib.Paging
import QnscKb.Review.Queue

/-!
# Listing — Paging

The three listings read page by page: the review queue (`list_drafts`, `count_drafts`), the articles
behind `/browse` (`ArticleRepository.list_articles`, `_browse_filters`) and the sources.  `order` is
what the database answers to an ordered query, chosen anew each time; `like` and `ilike` are its
matches.
-/

namespace QnscKb.Listing
open QnscKb.Access QnscKb.Review QnscKb.Where QnscKb.Paging

/-- An article with the columns `list_articles` filters and orders by. -/
structure ListedArticle extends Article where
  title : String
  type : String
  tags : List String
  createdAt : Nat
  updatedAt : Nat
  deriving DecidableEq

structure SourceRow extends DocumentSource where
  id : Id
  articleId : Option Id
  sourceRef : String
  originalFilename : Option String
  ingestedAt : Nat
  deriving DecidableEq

/-- The tables, with their primary keys. -/
structure Library where
  departments : List Department
  articles : List ListedArticle
  articleIds : (articles.map (·.id)).Nodup
  sources : List SourceRow
  sourceIds : (sources.map (·.id)).Nodup
  drafts : DraftTable

structure Response (ρ : Type) where
  items : List ρ
  total : Nat
  limit : Nat
  offset : Nat

/-- `if value: filters.append(…)`. -/
def whenGiven {ρ : Type} (value : Option String) (f : String → ρ → Bool) : List (ρ → Bool) :=
  match value with
  | some text => if text = "" then [] else [f text]
  | none => []

def containing (text : String) : String := "%" ++ text ++ "%"

/-- `order_by(PendingDraft.created_at.desc(), PendingDraft.id.desc())`. -/
def draftKey (d : PendingDraft) : Nat ×ₗ Nat := toLex (d.createdAt, d.id)

section Queue

variable (like : String → String → Bool) (table : DraftTable) (u : User)
  (status : Option DraftStatus)

/-- `list_drafts`, over what the database answers. -/
def queryDrafts (order : List PendingDraft → List PendingDraft) (limit : Option Nat) (offset : Nat)
    (search : Option String) : Option (List PendingDraft) :=
  (draftQueueScope u).map fun scope =>
    page (limit.getD DRAFT_PAGE_LIMIT) offset
      (order (select (draftScopeFilters like status scope search) table.rows))

/-- `list_pending_drafts`: a page, and the total in its `X-Total-Count`. -/
def listPendingDrafts (order : List PendingDraft → List PendingDraft) (limit offset : Nat)
    (search : Option String) : Option (Response PendingDraft) := do
  let items ← queryDrafts like table u status order (some limit) offset search
  let total ← countDrafts like table u status search
  some ⟨items, total, limit, offset⟩

/-- The rows the queue's scope matches. -/
def queued (search : Option String) : List PendingDraft :=
  ((draftQueueScope u).map fun scope =>
    select (draftScopeFilters like status scope search) table.rows).getD []

end Queue

/-! ### Browsing -/

/-- The arguments of `list_articles`. -/
structure ListQuery where
  dept : Option String := none
  type : Option String := none
  sensitivity : Option Sensitivity := none
  status : Option ArticleStatus := none
  topic : Option String := none
  searchQuery : Option String := none
  indexStatus : Option IndexStatus := none
  excludeType : Option String := none

/-- `or_(Article.dept == dept, Article.departments.any(Department.name == dept))`. -/
def inDepartment (dept : String) (a : ListedArticle) : Bool :=
  a.dept == dept || a.departments.any fun d => d.name == dept

def onTopic (topic : String) (a : ListedArticle) : Bool :=
  if topic = "General knowledge" then a.tags.isEmpty else a.tags.contains topic

/-- `_authorized_article_filters`, on rows that hold more columns. -/
def authorizedFilters (lib : Library) (u : User) : List (ListedArticle → Bool) :=
  (authorizedArticleFilters lib.departments u).map fun f a => f a.toArticle

/-- The conjuncts of `list_articles`. -/
def listArticleFilters (ilike : String → String → Bool) (lib : Library) (u : User) (q : ListQuery) :
    List (ListedArticle → Bool) :=
  authorizedFilters lib u ++ whenGiven q.dept inDepartment ++
    whenGiven q.type (fun type a => a.type == type) ++
    whenGiven q.excludeType (fun type a => a.type != type) ++
    (match q.sensitivity with
      | some s => [fun a => a.sensitivity == s]
      | none => []) ++
    (match q.status with
      | some s => [fun a => a.status == s]
      | none => []) ++
    (match q.indexStatus with
      | some s => [fun a => a.indexStatus == s]
      | none => []) ++
    whenGiven q.topic onTopic ++
    whenGiven q.searchQuery fun text a => ilike (containing text) a.title

/-- `order_by(Article.updated_at.desc(), Article.created_at.desc())`. -/
def articleKey (a : ListedArticle) : Nat ×ₗ Nat := toLex (a.updatedAt, a.createdAt)

section Browse

variable (ilike : String → String → Bool) (lib : Library) (u : User)

def listArticles (order : List ListedArticle → List ListedArticle) (q : ListQuery)
    (limit : Option Nat) (offset : Nat) : List ListedArticle :=
  page (limit.getD 200) offset (order (select (listArticleFilters ilike lib u q) lib.articles))

def browseFilters (dept topic query : Option String) : List (ListedArticle → Bool) :=
  authorizedFilters lib u ++ [fun a => a.status == .published] ++
    whenGiven dept inDepartment ++ whenGiven topic onTopic ++
    whenGiven query fun text a => ilike (containing (strip text)) a.title

def browseKnowledge (order : List ListedArticle → List ListedArticle)
    (dept topic q : Option String) (limit offset : Nat) : Response ListedArticle where
  items := listArticles ilike lib u order
    { dept := dept, topic := topic, searchQuery := q, status := some .published } (some limit) offset
  total := total (browseFilters ilike lib u dept topic q) lib.articles
  limit := limit
  offset := offset

end Browse

/-- `join(Article, DocumentSource.article_id == Article.id)`. -/
def joined (lib : Library) : List (SourceRow × ListedArticle) :=
  lib.sources.flatMap fun s =>
    (lib.articles.filter fun a => s.articleId == some a.id).map fun a => (s, a)

section Sources

variable (ilike : String → String → Bool) (lib : Library) (u : User)

/-- The conjuncts of the sources listing, the same for the page and for the total. -/
def sourceFilters (q sourceSystem : Option String) : List (SourceRow × ListedArticle → Bool) :=
  (authorizedFilters lib u).map (fun f row => f row.2) ++
    whenGiven sourceSystem (fun system row => row.1.sourceSystem == system) ++
    whenGiven q fun text row =>
      row.1.originalFilename.any (ilike (containing (strip text))) ||
        ilike (containing (strip text)) row.1.sourceRef ||
        ilike (containing (strip text)) row.2.title

/-- `order_by(DocumentSource.ingested_at.desc())`. -/
def sourceKey (row : SourceRow × ListedArticle) : Nat := row.1.ingestedAt

def sources (order : List (SourceRow × ListedArticle) → List (SourceRow × ListedArticle))
    (q sourceSystem : Option String) (limit offset : Nat) :
    Response (SourceRow × ListedArticle) where
  items := page limit offset (order (select (sourceFilters ilike lib u q sourceSystem) (joined lib)))
  total := total (sourceFilters ilike lib u q sourceSystem) (joined lib)
  limit := limit
  offset := offset

end Sources

/-- Under any answers, the pages hold the matching rows once each, as many as the total that
stands beside each of them. -/
def Paged {ρ κ : Type} [LinearOrder κ] (key : ρ → κ)
    (respond : (List ρ → List ρ) → Nat → Response ρ) (n : Nat) (rows : List ρ) : Prop :=
  ∀ orders : Nat → List ρ → List ρ, (∀ k, Sorts key (orders k)) → ∀ K, rows.length ≤ K * n →
    ((List.range K).flatMap fun k => (respond (orders k) (k * n)).items).Perm rows ∧
      ∀ k, (respond (orders k) (k * n)).total =
        ((List.range K).flatMap fun k => (respond (orders k) (k * n)).items).length

theorem paged_iff {ρ κ : Type} [LinearOrder κ] {key : ρ → κ} {n reported : Nat} {rows : List ρ}
    {respond : (List ρ → List ρ) → Nat → Response ρ} (hn : 0 < n) (hnodup : rows.Nodup)
    (hitems : ∀ order offset, (respond order offset).items = page n offset (order rows))
    (htotal : ∀ order offset, (respond order offset).total = reported) :
    Paged key respond n rows ↔ Fits key n rows ∧ rows.length = reported := by
  have hpages : ∀ (orders : Nat → List ρ → List ρ) K,
      ((List.range K).flatMap fun k => (respond (orders k) (k * n)).items) =
        pages n K fun k => orders k rows := by
    intro orders K
    simp only [hitems, pages]
  simp only [Paged, hpages, htotal]
  rw [← exact_iff hn hnodup]
  constructor
  · intro h
    have hexact : Exact key n rows := fun orders horders K hK => (h orders horders K hK).1
    refine ⟨hexact, ?_⟩
    obtain ⟨hperm, hcount⟩ := h (fun _ => descending key) (fun _ => sorts_descending key)
      rows.length (Nat.le_mul_of_pos_right _ hn)
    rw [hcount 0, hperm.length_eq]
  · rintro ⟨hexact, hcount⟩ orders horders K hK
    have hperm := hexact orders horders K hK
    exact ⟨hperm, fun _ => by rw [hperm.length_eq, hcount]⟩

/-! ### The queue -/

theorem DraftTable.eq_of_id (table : DraftTable) {d e : PendingDraft} (hd : d ∈ table.rows)
    (he : e ∈ table.rows) (h : d.id = e.id) : d = e :=
  List.inj_on_of_nodup_map table.ids hd he h

theorem draftKey_inj (table : DraftTable) {d e : PendingDraft} (hd : d ∈ table.rows)
    (he : e ∈ table.rows) (h : draftKey d = draftKey e) : d = e :=
  DraftTable.eq_of_id table hd he (congrArg (fun k => (ofLex k).2) h)

section Queue

variable (like : String → String → Bool) (table : DraftTable) (u : User)
  (status : Option DraftStatus) (search : Option String)

theorem mem_queued {d : PendingDraft} (h : d ∈ queued like table u status search) :
    d ∈ table.rows := by
  unfold queued at h
  cases hs : draftQueueScope u with
  | none => simp [hs] at h
  | some scope =>
    rw [hs] at h
    exact (mem_select.mp h).1

theorem queued_nodup : (queued like table u status search).Nodup := by
  unfold queued
  cases draftQueueScope u with
  | none => exact List.nodup_nil
  | some scope => exact table.ids.of_map.filter _

/-- **The queue's order is total**: whatever the database answers, a page is the listing's. -/
theorem queryDrafts_eq {order : List PendingDraft → List PendingDraft}
    (h : Sorts draftKey order) (limit : Option Nat) (offset : Nat) :
    queryDrafts like table u status order limit offset search =
      listDrafts like table u status limit offset search := by
  unfold queryDrafts listDrafts
  cases hs : draftQueueScope u with
  | none => rfl
  | some scope =>
    have hrows : ∀ d ∈ select (draftScopeFilters like status scope search) table.rows,
        d ∈ table.rows := fun d hd => (mem_select.mp hd).1
    have hnewest : newestFirst = descending draftKey := by
      funext rows
      unfold newestFirst descending draftKey
      congr 1
      funext x y
      rw [Prod.Lex.toLex_le_toLex, eq_comm (a := x.createdAt)]
    have horder := Ordered.unique draftKey
      (fun d hd e he => draftKey_inj table (hrows d hd) (hrows e he))
      (h (select (draftScopeFilters like status scope search) table.rows))
      (sorts_descending draftKey _)
    simp only [Option.map_some, horder, hnewest]

/-- **The queue pages exactly**: `id` makes its order total. -/
theorem queue_paged {n : Nat} (hn : 0 < n)
    {respond : (List PendingDraft → List PendingDraft) → Nat → Response PendingDraft}
    (h : ∀ order offset,
      listPendingDrafts like table u status order n offset search = some (respond order offset)) :
    Paged draftKey respond n (queued like table u status search) := by
  cases hs : draftQueueScope u with
  | none => simpa [listPendingDrafts, queryDrafts, hs] using h id 0
  | some scope =>
    have hrespond : ∀ order offset, respond order offset =
        ⟨page n offset (order (queued like table u status search)),
          (queued like table u status search).length, n, offset⟩ := by
      intro order offset
      have := h order offset
      simp only [listPendingDrafts, queryDrafts, countDrafts, hs, Option.map_some,
        Option.bind_eq_bind, Option.bind_some, Option.some.injEq] at this
      rw [← this, queued, hs]
      rfl
    refine (paged_iff hn (queued_nodup like table u status search) (fun order offset => ?_)
      (fun order offset => ?_)).mpr ⟨fits_of_injective (queued_nodup like table u status search)
        fun d hd e he => draftKey_inj table (mem_queued _ _ _ _ _ hd) (mem_queued _ _ _ _ _ he),
        rfl⟩
    · rw [hrespond]
    · rw [hrespond]

end Queue

/-! ### Browsing -/

section Browse

variable (ilike : String → String → Bool) (lib : Library) (u : User) (dept topic q : Option String)

/-- The rows a `/browse` page is cut from. -/
def browsed : List ListedArticle :=
  select (listArticleFilters ilike lib u
    { dept := dept, topic := topic, searchQuery := q, status := some .published }) lib.articles

/-- The title matches the query as typed, as the page asks. -/
def asTyped (a : ListedArticle) : Bool :=
  admits (whenGiven q fun text a => ilike (containing text) a.title) a

/-- The title matches the query without the white space around it, as the total asks. -/
def asStripped (a : ListedArticle) : Bool :=
  admits (whenGiven q fun text a => ilike (containing (strip text)) a.title) a

/-- Among the articles in view, as many match the query only as typed as only stripped. -/
def MatchAlike : Prop :=
  (select (browseFilters ilike lib u dept topic none) lib.articles).countP
      (fun a => asTyped ilike q a && !asStripped ilike q a) =
    (select (browseFilters ilike lib u dept topic none) lib.articles).countP
      fun a => asStripped ilike q a && !asTyped ilike q a

instance : Decidable (MatchAlike ilike lib u dept topic q) :=
  inferInstanceAs (Decidable (_ = _))

theorem admits_browseFilters (a : ListedArticle) :
    admits (browseFilters ilike lib u dept topic q) a =
      (admits (browseFilters ilike lib u dept topic none) a && asStripped ilike q a) := by
  simp [browseFilters, asStripped, whenGiven, Bool.and_assoc]

theorem admits_browsed (a : ListedArticle) :
    admits (listArticleFilters ilike lib u
        { dept := dept, topic := topic, searchQuery := q, status := some .published }) a =
      (admits (browseFilters ilike lib u dept topic none) a && asTyped ilike q a) := by
  have hcomm : ∀ x y z t w : Bool,
      (x && y && z && t && w) = (x && z && y && t && w) := by decide
  simp only [listArticleFilters, browseFilters, asTyped, whenGiven, admits_append, admits_nil,
    admits_cons, Bool.and_true]
  exact hcomm _ _ _ _ _

theorem browsed_length_iff :
    (browsed ilike lib u dept topic q).length =
        total (browseFilters ilike lib u dept topic q) lib.articles ↔
      MatchAlike ilike lib u dept topic q := by
  change total _ lib.articles = total _ lib.articles ↔ _
  rw [total_eq_total_iff, MatchAlike, select, List.countP_filter, List.countP_filter]
  have hsides : ∀ b x y : Bool, (b && x && !(b && y)) = (x && !y && b) := by decide
  simp only [admits_browseFilters ilike lib u dept topic q, admits_browsed, hsides]

/-- **Browsing pages exactly** where no articles with one pair of time stamps lie across a border
and page and total match alike. -/
theorem browse_exact_iff {n : Nat} (hn : 0 < n) :
    Paged articleKey (fun order => browseKnowledge ilike lib u order dept topic q n) n
        (browsed ilike lib u dept topic q) ↔
      Fits articleKey n (browsed ilike lib u dept topic q) ∧
        MatchAlike ilike lib u dept topic q := by
  rw [← browsed_length_iff]
  exact paged_iff hn (lib.articleIds.of_map.filter _) (fun _ _ => rfl) fun _ _ => rfl

end Browse

theorem joined_nodup (lib : Library) : (joined lib).Nodup := by
  refine List.nodup_flatMap.mpr ⟨fun s _ => ?_, lib.sourceIds.of_map.imp ?_⟩
  · refine (lib.articleIds.of_map.filter _).map fun a b h => ?_
    exact congrArg Prod.snd h
  · rintro s t hne row hs ht
    obtain ⟨a, -, rfl⟩ := List.mem_map.mp hs
    obtain ⟨b, -, hb⟩ := List.mem_map.mp ht
    exact hne (congrArg Prod.fst hb).symm

section Sources

variable (ilike : String → String → Bool) (lib : Library) (u : User)
  (q sourceSystem : Option String)

def sourced : List (SourceRow × ListedArticle) :=
  select (sourceFilters ilike lib u q sourceSystem) (joined lib)

/-- **The sources page exactly** where no sources ingested at one time lie across a border. -/
theorem sources_exact_iff {n : Nat} (hn : 0 < n) :
    Paged sourceKey (fun order => sources ilike lib u order q sourceSystem n) n
        (sourced ilike lib u q sourceSystem) ↔
      Fits sourceKey n (sourced ilike lib u q sourceSystem) := by
  have hnodup : (sourced ilike lib u q sourceSystem).Nodup := (joined_nodup lib).filter _
  have htotal : ∀ order offset, (sources ilike lib u order q sourceSystem n offset).total =
      (sourced ilike lib u q sourceSystem).length := fun _ _ => rfl
  exact (paged_iff hn hnodup (fun _ _ => rfl) htotal).trans (and_iff_left rfl)

end Sources

/-- What the three listings are asked for. -/
structure Asked where
  status : Option DraftStatus := none
  search : Option String := none
  dept : Option String := none
  topic : Option String := none
  q : Option String := none
  sourceQ : Option String := none
  sourceSystem : Option String := none

/-- Each listing's pages hold its rows once each, as many as its total. -/
structure PagingExact (like ilike : String → String → Bool) (lib : Library) (u : User)
    (asked : Asked) (n : Nat) : Prop where
  queue : ∀ respond : (List PendingDraft → List PendingDraft) → Nat → Response PendingDraft,
    (∀ order offset, listPendingDrafts like lib.drafts u asked.status order n offset asked.search =
      some (respond order offset)) →
    Paged draftKey respond n (queued like lib.drafts u asked.status asked.search)
  browse : Paged articleKey
    (fun order => browseKnowledge ilike lib u order asked.dept asked.topic asked.q n) n
    (browsed ilike lib u asked.dept asked.topic asked.q)
  sources : Paged sourceKey
    (fun order => Listing.sources ilike lib u order asked.sourceQ asked.sourceSystem n) n
    (sourced ilike lib u asked.sourceQ asked.sourceSystem)

/-- **Paging is exact** exactly where no articles or sources that tie lie across a border of pages,
and the query matches as many articles typed as stripped. -/
theorem paging_exact_iff (like ilike : String → String → Bool) (lib : Library) (u : User)
    (asked : Asked) {n : Nat} (hn : 0 < n) :
    PagingExact like ilike lib u asked n ↔
      Fits articleKey n (browsed ilike lib u asked.dept asked.topic asked.q) ∧
        MatchAlike ilike lib u asked.dept asked.topic asked.q ∧
        Fits sourceKey n (sourced ilike lib u asked.sourceQ asked.sourceSystem) := by
  constructor
  · rintro ⟨-, hbrowse, hsources⟩
    obtain ⟨hfits, halike⟩ := (browse_exact_iff ilike lib u _ _ _ hn).mp hbrowse
    exact ⟨hfits, halike, (sources_exact_iff ilike lib u _ _ hn).mp hsources⟩
  · rintro ⟨hfits, halike, hsources⟩
    exact ⟨fun _ h => queue_paged like lib.drafts u asked.status asked.search hn h,
      (browse_exact_iff ilike lib u _ _ _ hn).mpr ⟨hfits, halike⟩,
      (sources_exact_iff ilike lib u _ _ hn).mpr hsources⟩

def importedArticle (id : Id) : ListedArticle :=
  { financeArticle with
    id := id, title := "Policy", type := "POLICY", tags := [], createdAt := 5, updatedAt := 5 }

def importedLibrary : Library where
  departments := [engineering, finance]
  articles := [importedArticle 1000, importedArticle 1001]
  articleIds := by decide
  sources := []
  sourceIds := List.nodup_nil
  drafts := ⟨[], List.nodup_nil⟩

theorem paging_exact_iff_importedLibrary :
    PagingExact (fun _ _ => false) (fun _ _ => false) importedLibrary engineer {} 2 ↔
      Fits articleKey 2 (browsed (fun _ _ => false) importedLibrary engineer none none none) ∧
        MatchAlike (fun _ _ => false) importedLibrary engineer none none none ∧
        Fits sourceKey 2 (sourced (fun _ _ => false) importedLibrary engineer none none) :=
  paging_exact_iff (fun _ _ => false) (fun _ _ => false) importedLibrary engineer {} (by decide)

/-- On pages of one, browsing shows one of two articles of one import twice. -/
theorem imported_articles_repeat :
    ¬ ∀ (like ilike : String → String → Bool) (lib : Library) (u : User) (asked : Asked) (n : Nat),
      0 < n → PagingExact like ilike lib u asked n := by
  intro h
  have hbrowse := (h (fun _ _ => false) (fun _ _ => false) importedLibrary engineer {} 1
    (by decide)).browse
  have hfits := ((browse_exact_iff _ importedLibrary engineer none none none (by decide)).mp
    hbrowse).1
  revert hfits
  decide

/-! ### Two drafts of one time -/

def financeReviewer : User :=
  { engineer with
    role := "Reviewer", departments := [finance]
    roles := [roleOf "Reviewer" [⟨.articleReview, .company⟩]] }

def financeDraft (id : Id) : PendingDraft :=
  ⟨id, 5, "Policy", "policy.docx", "qnsc.vn", some "Finance", .pending, some 200, none⟩

def tiedDrafts : DraftTable := ⟨[financeDraft 1, financeDraft 2, financeDraft 3], by decide⟩

/-- A database that merges. -/
def merging (rows : List PendingDraft) : List PendingDraft :=
  rows.mergeSort fun a b => decide (draftKey b ≤ draftKey a)

theorem sorts_merging : Sorts draftKey merging := by
  refine fun rows => ⟨List.mergeSort_perm _ _, ?_⟩
  refine (List.pairwise_mergeSort ?_ ?_ rows).imp fun h => of_decide_eq_true h
  · intro a b c hab hbc
    exact decide_eq_true ((of_decide_eq_true hbc).trans (of_decide_eq_true hab))
  · intro a b
    simpa using le_total (draftKey b) (draftKey a)

theorem queryDrafts_eq_tiedDrafts :
    queryDrafts (fun _ _ => false) tiedDrafts financeReviewer none merging (some 2) 0 none =
        listDrafts (fun _ _ => false) tiedDrafts financeReviewer none (some 2) 0 none ∧
      listDrafts (fun _ _ => false) tiedDrafts financeReviewer none (some 2) 0 none =
        some [financeDraft 3, financeDraft 2] :=
  ⟨queryDrafts_eq _ _ _ _ _ sorts_merging (some 2) 0, by decide⟩

end QnscKb.Listing
