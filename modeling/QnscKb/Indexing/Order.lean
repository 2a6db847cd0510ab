import QnscKb.Indexing.Model

/-!
# Indexing — Order

The chunks of every section are numbered from zero, and so are those of every parent of an artifact.
-/

namespace QnscKb.Indexing

open QnscKb.Ask (Unicode)
open QnscKb.Chunking (Parent Pack Block createParentChildChunks slidingChunks pack covers_pack inkOf
  ink_blocks children_eq ink_strip)
open Ink
open Text (isSpace)

variable {U : Unicode} {lower : Text → Text} {matchSourcePage : Text → Option ℤ}

/-! ### Parents and children -/

variable {t : Text}

theorem strip_nil_iff_ink : Text.strip t = [] ↔ ink isSpace t = [] := by
  rw [Text.strip_nil_iff, ink_eq_nil_iff]

theorem text_ne_nil {size overlap : ℕ} {blocks : List Block} {p : Pack}
    (h : p ∈ pack size overlap blocks) : p.text ≠ [] := by
  simpa using (List.mem_filter.mp h).2

theorem strip_text (p : Pack) : Text.strip p.text = p.text := Text.strip_strip _

theorem pack_nil_iff {size overlap : ℕ} {blocks : List Block} (h : inkOf blocks = ink isSpace t) :
    pack size overlap blocks = [] ↔ Text.strip t = [] := by
  have hcovers := covers_pack size overlap t h
  rw [strip_nil_iff_ink, ← hcovers.whole]
  constructor
  · intro hnil
    rw [hnil]
    rfl
  · intro hown
    cases hpacks : pack size overlap blocks with
    | nil => rfl
    | cons p packs =>
      have hp : p ∈ pack size overlap blocks := by
        rw [hpacks]
        exact List.mem_cons_self
      -- the first pack has no overlap, so its text is what it holds
      have htext := hcovers.texts p hp
      have hoverlap := hcovers.first p (by rw [hpacks]; rfl)
      rw [hoverlap, ink_nil, List.nil_append, List.flatMap_eq_nil_iff.mp hown p hp,
        ← strip_nil_iff_ink, strip_text] at htext
      exact absurd htext (text_ne_nil hp)

variable {heading : Option Text}

/-- Only what says something has them. -/
theorem parents_nil_iff : createParentChildChunks U t heading = [] ↔ Text.strip t = [] := by
  rw [createParentChildChunks, List.mapIdx_eq_nil_iff]
  exact pack_nil_iff (ink_blocks U t heading)

variable {parent : Parent}

theorem parentText_said (h : parent ∈ createParentChildChunks U t heading) :
    Text.strip parent.parentText ≠ [] := by
  obtain ⟨index, hindex, rfl⟩ := List.mem_mapIdx.mp h
  rw [strip_text]
  exact text_ne_nil (List.getElem_mem hindex)

theorem children_ne_nil (h : parent ∈ createParentChildChunks U t heading) :
    parent.children ≠ [] := by
  intro hnil
  rw [children_eq h, slidingChunks, List.map_eq_nil_iff, pack_nil_iff (ink_blocks U _ none)] at hnil
  exact parentText_said h hnil

theorem child_said (h : parent ∈ createParentChildChunks U t heading) {child : Text}
    (hchild : child ∈ parent.children) : Text.strip child ≠ [] := by
  rw [children_eq h] at hchild
  obtain ⟨p, hp, rfl⟩ := List.mem_map.mp hchild
  rw [strip_text]
  exact text_ne_nil hp

/-! ### Numbers -/

theorem flatten_nil_iff {α : Type} {groups : List (List α)} :
    groups.flatten = [] ↔ groups.countP (!·.isEmpty) = 0 := by
  simp [List.countP_eq_zero]

/-- Lists numbered from zero, one after the other. -/
theorem pairwise_flatten_iff {groups : List (List ℕ)} (h : ∀ g ∈ groups, ∃ n, g = List.range n) :
    groups.flatten.Pairwise (· < ·) ↔ groups.countP (!·.isEmpty) ≤ 1 := by
  induction groups with
  | nil => simp
  | cons g groups ih =>
    obtain ⟨⟨n, rfl⟩, hgroups⟩ := List.forall_mem_cons.mp h
    cases n with
    | zero => simpa using ih hgroups
    | succ n =>
      have hcount : (List.range (n + 1) :: groups).countP (!·.isEmpty) ≤ 1 ↔
          groups.countP (!·.isEmpty) = 0 := by
        simp
      rw [hcount, ← flatten_nil_iff, List.flatten_cons, List.pairwise_append]
      constructor
      · rintro ⟨-, -, hbefore⟩
        by_contra hne
        -- what comes later starts from zero again
        obtain ⟨g, hg, hgne⟩ : ∃ g ∈ groups, g ≠ [] := by simpa using hne
        obtain ⟨m, rfl⟩ := hgroups g hg
        have hzero : 0 ∈ groups.flatten :=
          List.mem_flatten.mpr ⟨_, hg, by simpa [Nat.pos_iff_ne_zero] using hgne⟩
        exact absurd (hbefore 0 (by simp) 0 hzero) (Nat.lt_irrefl 0)
      · intro hnil
        rw [hnil]
        exact ⟨List.pairwise_lt_range, .nil, fun _ _ _ hb => absurd hb List.not_mem_nil⟩

theorem sectionChunks_index (number : ℕ) (s : Section) (text : Text) :
    (sectionChunks U matchSourcePage number s text).map ArticleChunk.chunkIndex =
      List.range (sectionChunks U matchSourcePage number s text).length := by
  refine List.ext_getElem (by simp) fun i hi hi' => ?_
  simp [sectionChunks]

theorem parentChunks_eq (h : parent ∈ createParentChildChunks U t heading) (number : ℕ)
    (spec : Artifact) (place : ℕ) :
    parentChunks number spec place parent = parent.children.mapIdx fun child text =>
      { id := .artifact number place child
        parentChunkId := place
        evidenceId := some number
        chunkText := Text.strip text
        chunkIndex := child
        pageNumber := orPage spec.pageNumber (some 1) } := by
  have hkept : ∀ entry ∈ parent.children.mapIdx fun child text => (Text.strip text, child),
      entry.1.isEmpty = false := by
    intro entry hentry
    obtain ⟨child, hchild, rfl⟩ := List.mem_mapIdx.mp hentry
    simpa using child_said h (List.getElem_mem hchild)
  rw [parentChunks, List.filterMap_congr (g := fun entry => some
    { id := .artifact number place entry.2
      parentChunkId := place
      evidenceId := some number
      chunkText := entry.1
      chunkIndex := entry.2
      pageNumber := orPage spec.pageNumber (some 1) })]
  · rw [List.filterMap_eq_map']
    exact List.ext_getElem (by simp) fun i hi hi' => by simp
  · intro entry hentry
    simp [hkept entry hentry]

theorem parentChunks_index (h : parent ∈ createParentChildChunks U t heading) (number : ℕ)
    (spec : Artifact) (place : ℕ) :
    (parentChunks number spec place parent).map ArticleChunk.chunkIndex =
      List.range parent.children.length := by
  rw [parentChunks_eq h]
  exact List.ext_getElem (by simp) fun i hi hi' => by simp

/-! ### What is chunked -/

theorem pendingChildren_nil_iff :
    pendingChildren (createParentChildChunks U t heading) = [] ↔ Text.strip t = [] := by
  have hparents : createParentChildChunks U t heading = [] ↔ Text.strip t = [] := parents_nil_iff
  rw [← hparents, pendingChildren, List.flatMap_eq_nil_iff]
  constructor
  · intro h
    by_contra hne
    obtain ⟨parent, hparent⟩ := List.exists_mem_of_ne_nil _ hne
    obtain ⟨place, hplace, rfl⟩ := List.getElem_of_mem hparent
    have hnil := h _ (List.mem_mapIdx.mpr ⟨place, hplace, rfl⟩)
    exact children_ne_nil hparent (List.map_eq_nil_iff.mp hnil)
  · intro h
    simp [h]

theorem sectionChunks_isEmpty (number : ℕ) (s : Section) (text : Text) :
    (!(sectionChunks U matchSourcePage number s text).isEmpty) = spoken text := by
  rw [spoken, Bool.not_inj_iff, Bool.eq_iff_iff, List.isEmpty_iff, List.isEmpty_iff, sectionChunks,
    List.mapIdx_eq_nil_iff]
  exact pendingChildren_nil_iff

theorem countP_mapIdx {α β : Type} {p : β → Bool} {q : α → Bool} {f : ℕ → α → β} {l : List α}
    (h : ∀ i x, p (f i x) = q x) : (l.mapIdx f).countP p = l.countP q := by
  induction l generalizing f with
  | nil => rfl
  | cons x l ih =>
    rw [List.mapIdx_cons, List.countP_cons, List.countP_cons, h, ih fun i y => h (i + 1) y]

theorem length_indexable (body : Text) (source : Option Source) :
    (indexable U lower body source).length = (sections body source).length := by
  unfold indexable
  dsimp only
  split
  · simp
  · split
    · simp
    · simp

variable (U lower) in
def spokenSections (body : Text) (source : Option Source) : ℕ :=
  (indexable U lower body source).countP spoken

theorem count_sections (matchSourcePage : Text → Option ℤ) (body : Text) (source : Option Source) :
    (allSectionChunks U lower matchSourcePage body source).countP (!·.isEmpty) =
      spokenSections U lower body source := by
  have hfirst : ((indexable U lower body source).zip (sections body source)).map Prod.fst =
      indexable U lower body source :=
    List.map_fst_zip (length_indexable body source).le
  rw [spokenSections, ← hfirst, List.countP_map]
  exact countP_mapIdx fun number entry => sectionChunks_isEmpty number entry.2 entry.1

variable {source : Option Source} {g : List ArticleChunk}

theorem index_of_sections {body : Text}
    (h : g ∈ allSectionChunks U lower matchSourcePage body source) :
    g.map ArticleChunk.chunkIndex = List.range g.length := by
  obtain ⟨number, hnumber, rfl⟩ := List.mem_mapIdx.mp h
  exact sectionChunks_index number _ _

variable (U) in
/-- The parents of the artifacts that the embedder answers for. -/
def storedParents (e : Embedder) (source : Option Source) : List Parent :=
  (((source.map Source.evidenceSpecs).getD []).mapIdx fun number spec =>
    if e.answersArtifact number ((artifactChunks U number spec).flatten.map ArticleChunk.chunkText)
    then artifactParents U spec else []).flatten

theorem length_storedParents (e : Embedder) (source : Option Source) :
    (allArtifactChunks U e source).length = (storedParents U e source).length := by
  rw [allArtifactChunks, storedParents, List.length_flatten, List.length_flatten]
  congr 1
  refine List.ext_getElem (by simp) fun i hi hi' => ?_
  simp only [List.getElem_map, List.getElem_mapIdx]
  split
  · simp [artifactChunks]
  · rfl

theorem mem_artifactParents {spec : Artifact} (h : parent ∈ artifactParents U spec) :
    ∃ t heading, parent ∈ createParentChildChunks U t heading := by
  unfold artifactParents at h
  split at h
  · exact ⟨_, _, h⟩
  · cases h

theorem mem_allArtifactChunks {e : Embedder} (h : g ∈ allArtifactChunks U e source) :
    ∃ number spec place parent,
      parent ∈ artifactParents U spec ∧ g = parentChunks number spec place parent := by
  obtain ⟨chunks, hchunks, hg⟩ := List.mem_flatten.mp h
  obtain ⟨number, hnumber, rfl⟩ := List.mem_mapIdx.mp hchunks
  dsimp only at hg
  split at hg
  · obtain ⟨place, hplace, rfl⟩ := List.mem_mapIdx.mp hg
    exact ⟨_, _, _, _, List.getElem_mem hplace, rfl⟩
  · cases hg

theorem index_of_artifacts {e : Embedder} (h : g ∈ allArtifactChunks U e source) :
    ∃ n, g.map ArticleChunk.chunkIndex = List.range (n + 1) := by
  obtain ⟨number, spec, place, parent, hparent, rfl⟩ := mem_allArtifactChunks h
  obtain ⟨t, heading, hparent⟩ := mem_artifactParents hparent
  obtain ⟨n, hn⟩ := Nat.exists_eq_succ_of_ne_zero
    (List.length_pos_iff.mpr (children_ne_nil hparent)).ne'
  exact ⟨n, (parentChunks_index hparent number spec place).trans (by rw [hn])⟩

theorem count_artifacts (e : Embedder) (source : Option Source) :
    (allArtifactChunks U e source).countP (!·.isEmpty) = (storedParents U e source).length := by
  rw [← length_storedParents]
  refine List.countP_eq_length.mpr fun g hg => ?_
  obtain ⟨n, hn⟩ := index_of_artifacts hg
  cases g with
  | nil => simp at hn
  | cons c g => rfl

/-- **The numbers increase** exactly where one section, or one parent of an artifact, has all the
chunks. -/
theorem increasing_iff (e : Embedder) (body : Text) (source : Option Source) :
    ((allSectionChunks U lower matchSourcePage body source).flatten ++
      (allArtifactChunks U e source).flatten).Pairwise (fun a b => a.chunkIndex < b.chunkIndex) ↔
    spokenSections U lower body source + (storedParents U e source).length ≤ 1 := by
  have hgroups : ∀ g ∈ (allSectionChunks U lower matchSourcePage body source ++
      allArtifactChunks U e source).map (List.map ArticleChunk.chunkIndex),
      ∃ n, g = List.range n := by
    intro g hg
    obtain ⟨chunks, hchunks, rfl⟩ := List.mem_map.mp hg
    rcases List.mem_append.mp hchunks with hsection | hartifact
    · exact ⟨_, index_of_sections hsection⟩
    · obtain ⟨n, hn⟩ := index_of_artifacts hartifact
      exact ⟨_, hn⟩
  have hcount := pairwise_flatten_iff hgroups
  rw [← List.map_flatten, List.pairwise_map, List.flatten_append] at hcount
  rw [hcount, ← count_sections matchSourcePage, ← count_artifacts]
  simp [Function.comp_def]

/-! ### The first chunk -/

/-- An article's representative is its first ordinary chunk, whatever else the table holds and in
whatever order the rows come. -/
def OpensDocument {α : Type} [DecidableEq α] (article : α) (chunks : List ArticleChunk) : Prop :=
  ∀ (others : List (Row α)) (articleIds : List α) (rows : List (Row α)),
    (∀ row ∈ others, row.articleId ≠ article) → article ∈ articleIds →
    rows.Perm (opening (others ++ chunks.map (Row.mk article)) articleIds) →
    representative rows article = chunks.find? fun chunk => chunk.evidenceId = none

def zeroth (chunks : List ArticleChunk) : List ArticleChunk :=
  chunks.filter fun chunk => chunk.evidenceId = none ∧ chunk.chunkIndex = 0

section Representatives

variable {α : Type} [DecidableEq α] {article : α} {others : List (Row α)}
  {chunks : List ArticleChunk}

theorem leastIndex_own (hothers : ∀ row ∈ others, row.articleId ≠ article) :
    leastIndex (others ++ chunks.map (Row.mk article)) article =
      ((chunks.filter fun chunk => chunk.evidenceId = none).map ArticleChunk.chunkIndex).min? := by
  have hnone : others.filter (fun row => row.articleId = article ∧ row.chunk.evidenceId = none) =
      [] := by
    simpa using fun row hrow h => absurd h (hothers row hrow)
  rw [leastIndex, List.filter_append, hnone, List.filter_map]
  simp [Function.comp_def]

theorem least_zero (h : zeroth chunks ≠ []) :
    ((chunks.filter fun chunk => chunk.evidenceId = none).map ArticleChunk.chunkIndex).min? =
      some 0 := by
  obtain ⟨chunk, hchunk⟩ := List.exists_mem_of_ne_nil _ h
  obtain ⟨hmem, hkeep⟩ := List.mem_filter.mp hchunk
  obtain ⟨hordinary, hindex⟩ := of_decide_eq_true hkeep
  refine List.min?_eq_some_iff.mpr ⟨?_, fun _ _ => Nat.zero_le _⟩
  exact List.mem_map.mpr ⟨chunk, List.mem_filter.mpr ⟨hmem, decide_eq_true hordinary⟩, hindex⟩

theorem opening_own (hothers : ∀ row ∈ others, row.articleId ≠ article) {articleIds : List α}
    (harticle : article ∈ articleIds)
    (hzero : ∀ chunk ∈ chunks, chunk.evidenceId = none → zeroth chunks ≠ []) :
    (opening (others ++ chunks.map (Row.mk article)) articleIds).filter
      (fun row => row.articleId = article) = (zeroth chunks).map (Row.mk article) := by
  rw [opening, List.filter_append, List.filter_append]
  have hnone : (others.filter fun row => row.articleId ∈ articleIds ∧ row.chunk.evidenceId = none ∧
      leastIndex (others ++ chunks.map (Row.mk article)) row.articleId =
        some row.chunk.chunkIndex).filter (fun row => row.articleId = article) = [] := by
    refine List.filter_eq_nil_iff.mpr fun row hrow => ?_
    simpa using hothers row (List.mem_of_mem_filter hrow)
  rw [hnone, List.nil_append, List.filter_filter, List.filter_map]
  congr 1
  refine List.filter_congr fun chunk hchunk => ?_
  simp only [Function.comp_apply, decide_true, Bool.true_and, decide_eq_decide]
  rw [and_iff_right harticle]
  refine and_congr_right fun hordinary => ?_
  rw [leastIndex_own hothers, least_zero (hzero chunk hchunk hordinary), Option.some.injEq,
    eq_comm]

/-- Chunks section by section, each section numbered from zero, and chunks of artifacts behind
them. -/
structure Numbered (sections : List (List ArticleChunk)) (artifacts : List ArticleChunk) :
    Prop where
  ordinary : ∀ g ∈ sections, ∀ chunk ∈ g, chunk.evidenceId = none
  evidence : ∀ chunk ∈ artifacts, chunk.evidenceId ≠ none
  index : ∀ g ∈ sections, g.map ArticleChunk.chunkIndex = List.range g.length
  apart : sections.Pairwise fun g g' => ∀ chunk ∈ g, ∀ chunk' ∈ g', chunk ≠ chunk'

def firsts (sections : List (List ArticleChunk)) : List ArticleChunk :=
  sections.filterMap List.head?

@[simp] theorem firsts_nil : firsts [] = [] := rfl

@[simp] theorem firsts_empty (sections : List (List ArticleChunk)) :
    firsts ([] :: sections) = firsts sections := rfl

@[simp] theorem firsts_cons (chunk : ArticleChunk) (g : List ArticleChunk)
    (sections : List (List ArticleChunk)) :
    firsts ((chunk :: g) :: sections) = chunk :: firsts sections := rfl

theorem length_firsts (sections : List (List ArticleChunk)) :
    (firsts sections).length = sections.countP (!·.isEmpty) := by
  induction sections with
  | nil => rfl
  | cons g sections ih => cases g <;> simp [ih]

theorem head_flatten (sections : List (List ArticleChunk)) :
    sections.flatten.head? = (firsts sections).head? := by
  induction sections with
  | nil => rfl
  | cons g sections ih => cases g <;> simp [ih]

theorem flatten_heads (sections : List (List ArticleChunk)) :
    (sections.map fun g => g.head?.toList).flatten = firsts sections := by
  induction sections with
  | nil => rfl
  | cons g sections ih => cases g <;> simp [ih]

theorem filter_zero {g : List ArticleChunk}
    (h : g.map ArticleChunk.chunkIndex = List.range g.length) :
    g.filter (fun chunk => chunk.chunkIndex = 0) = g.head?.toList := by
  cases g with
  | nil => rfl
  | cons chunk g =>
    rw [List.length_cons, List.range_succ_eq_map] at h
    obtain ⟨hfirst, hrest⟩ := List.cons.inj h
    have hlater : g.filter (fun chunk => chunk.chunkIndex = 0) = [] := by
      refine List.filter_eq_nil_iff.mpr fun later hmem hzero => ?_
      have hindex : later.chunkIndex ∈ (List.range g.length).map Nat.succ := by
        rw [← hrest]
        exact List.mem_map_of_mem hmem
      obtain ⟨n, -, hn⟩ := List.mem_map.mp hindex
      exact absurd (hn.trans (of_decide_eq_true hzero)) (Nat.succ_ne_zero n)
    rw [List.filter_cons_of_pos (by simpa using hfirst), hlater]
    rfl

namespace Numbered

variable {sections : List (List ArticleChunk)} {artifacts : List ArticleChunk}

theorem zeroth_eq (h : Numbered sections artifacts) :
    zeroth (sections.flatten ++ artifacts) = firsts sections := by
  have hevidence : artifacts.filter (fun chunk => chunk.evidenceId = none ∧ chunk.chunkIndex = 0) =
      [] := by
    refine List.filter_eq_nil_iff.mpr fun chunk hchunk hkeep => ?_
    exact h.evidence chunk hchunk (of_decide_eq_true hkeep).1
  have hsections : sections.map (List.filter fun chunk =>
      chunk.evidenceId = none ∧ chunk.chunkIndex = 0) = sections.map fun g => g.head?.toList := by
    refine List.map_congr_left fun g hg => ?_
    rw [← filter_zero (h.index g hg)]
    refine List.filter_congr fun chunk hchunk => ?_
    simp [h.ordinary g hg chunk hchunk]
  rw [zeroth, List.filter_append, hevidence, List.append_nil, List.filter_flatten, hsections,
    flatten_heads]

theorem first_eq (h : Numbered sections artifacts) :
    (sections.flatten ++ artifacts).find? (fun chunk => chunk.evidenceId = none) =
      (firsts sections).head? := by
  have hordinary : sections.flatten.filter (fun chunk => chunk.evidenceId = none) =
      sections.flatten := by
    refine List.filter_eq_self.mpr fun chunk hchunk => ?_
    obtain ⟨g, hg, hmem⟩ := List.mem_flatten.mp hchunk
    exact decide_eq_true (h.ordinary g hg chunk hmem)
  have hevidence : artifacts.filter (fun chunk => chunk.evidenceId = none) = [] := by
    refine List.filter_eq_nil_iff.mpr fun chunk hchunk hkeep => ?_
    exact h.evidence chunk hchunk (of_decide_eq_true hkeep)
  rw [← List.head?_filter, List.filter_append, hordinary, hevidence, List.append_nil, head_flatten]

theorem nodup_firsts (h : Numbered sections artifacts) : (firsts sections).Nodup := by
  refine List.Pairwise.filterMap List.head? (fun g g' happart chunk hchunk chunk' hchunk' => ?_)
    h.apart
  exact happart chunk (List.mem_of_mem_head? hchunk) chunk' (List.mem_of_mem_head? hchunk')

theorem opening_firsts (h : Numbered sections artifacts)
    (hothers : ∀ row ∈ others, row.articleId ≠ article) {articleIds : List α}
    (harticle : article ∈ articleIds) :
    (opening (others ++ (sections.flatten ++ artifacts).map (Row.mk article)) articleIds).filter
      (fun row => row.articleId = article) = (firsts sections).map (Row.mk article) := by
  rw [opening_own hothers harticle, h.zeroth_eq]
  intro chunk hchunk hordinary hnil
  rw [h.zeroth_eq] at hnil
  have hflatten : sections.flatten = [] := by
    rw [← List.head?_eq_none_iff, head_flatten, hnil]
    rfl
  rw [hflatten] at hchunk
  exact h.evidence chunk hchunk hordinary

/-- **The representative** is the first chunk exactly where one section has all the ordinary
chunks. -/
theorem opens_iff (h : Numbered sections artifacts) :
    OpensDocument article (sections.flatten ++ artifacts) ↔
      sections.countP (!·.isEmpty) ≤ 1 := by
  rw [← length_firsts]
  constructor
  · intro hopens
    -- the rows the other way round: the last of them is then the representative
    have hlast := hopens [] [article] _ (List.forall_mem_nil _) List.mem_cons_self
      (List.reverse_perm _)
    rw [h.first_eq, representative, ← List.head?_filter, List.filter_reverse,
      h.opening_firsts (List.forall_mem_nil _) List.mem_cons_self, List.head?_reverse,
      List.getLast?_map, Option.map_map] at hlast
    have hnodup := h.nodup_firsts
    cases hfirsts : firsts sections with
    | nil => exact Nat.zero_le 1
    | cons chunk rest =>
      rw [hfirsts] at hlast hnodup
      cases rest with
      | nil => exact Nat.le_refl 1
      | cons next rest =>
        have hmem : chunk ∈ next :: rest :=
          List.mem_of_mem_getLast? (by simpa [Function.comp_def] using hlast)
        exact absurd hmem (List.nodup_cons.mp hnodup).1
  · intro hone others articleIds rows hothers harticle hrows
    have hperm := hrows.filter fun row => row.articleId = article
    rw [h.opening_firsts hothers harticle] at hperm
    rw [h.first_eq, representative, ← List.head?_filter]
    cases hfirsts : firsts sections with
    | nil =>
      rw [hfirsts] at hperm
      rw [List.perm_nil.mp hperm]
      rfl
    | cons chunk rest =>
      rw [hfirsts] at hperm hone
      have hrest : rest = [] :=
        List.length_eq_zero_iff.mp (Nat.le_zero.mp (Nat.le_of_succ_le_succ hone))
      rw [hrest] at hperm
      rw [List.perm_singleton.mp hperm]
      rfl

end Numbered

end Representatives

/-! ### The run -/

theorem id_of_sectionChunks {number : ℕ} {s : Section} {text : Text} {chunk : ArticleChunk}
    (h : chunk ∈ sectionChunks U matchSourcePage number s text) :
    chunk.evidenceId = none ∧ ∃ child, chunk.id = .section number child := by
  obtain ⟨child, hchild, rfl⟩ := List.mem_mapIdx.mp h
  exact ⟨rfl, child, rfl⟩

theorem numbered (e : Embedder) (body : Text) (source : Option Source) :
    Numbered (allSectionChunks U lower matchSourcePage body source)
      (allArtifactChunks U e source).flatten where
  ordinary := by
    intro g hg chunk hchunk
    obtain ⟨number, hnumber, rfl⟩ := List.mem_mapIdx.mp hg
    exact (id_of_sectionChunks hchunk).1
  evidence := by
    intro chunk hchunk
    obtain ⟨g, hg, hmem⟩ := List.mem_flatten.mp hchunk
    obtain ⟨number, spec, place, parent, hparent, rfl⟩ := mem_allArtifactChunks hg
    obtain ⟨t, heading, hparent⟩ := mem_artifactParents hparent
    rw [parentChunks_eq hparent] at hmem
    obtain ⟨child, hchild, rfl⟩ := List.mem_mapIdx.mp hmem
    exact Option.some_ne_none number
  index := fun g hg => index_of_sections hg
  apart := by
    rw [List.pairwise_iff_getElem]
    intro i j hi hj hij chunk hchunk chunk' hchunk' heq
    simp only [allSectionChunks, List.getElem_mapIdx] at hchunk hchunk'
    obtain ⟨-, child, hid⟩ := id_of_sectionChunks hchunk
    obtain ⟨-, child', hid'⟩ := id_of_sectionChunks hchunk'
    rw [heq, hid'] at hid
    cases hid
    exact Nat.lt_irrefl _ hij

/-- **Document order**: the numbers of a run's chunks increase, and the representative is the first,
exactly where one section or one parent of an artifact has them all; the representative alone is
right where one section has all the ordinary ones. -/
theorem order_kept_iff {α : Type} [DecidableEq α] (article : α) {e : Embedder} {body : Text}
    {source : Option Source} {chunks : List ArticleChunk}
    (h : indexArticle U lower matchSourcePage e body source = some chunks) :
    (chunks.Pairwise (fun a b => a.chunkIndex < b.chunkIndex) ∧ OpensDocument article chunks ↔
      spokenSections U lower body source + (storedParents U e source).length ≤ 1) ∧
    (OpensDocument article chunks ↔ spokenSections U lower body source ≤ 1) := by
  have hchunks : (allSectionChunks U lower matchSourcePage body source).flatten ++
      (allArtifactChunks U e source).flatten = chunks := by
    unfold indexArticle at h
    dsimp only at h
    split at h
    · cases h
    · exact Option.some.inj h
  have hopens : OpensDocument article chunks ↔ spokenSections U lower body source ≤ 1 := by
    rw [← hchunks, ← count_sections matchSourcePage]
    exact (numbered e body source).opens_iff
  refine ⟨?_, hopens⟩
  rw [hopens, ← hchunks, increasing_iff, and_iff_left_iff_imp]
  exact fun hone => (Nat.le_add_right _ _).trans hone

def answering : Embedder := ⟨fun _ => false, fun _ _ => true, fun _ _ => true⟩

def indexBody (body : String) : Option (List ArticleChunk) :=
  indexArticle Ask.ascii id (fun _ => none) answering body.toList none

def indexLong : Option (List ArticleChunk) :=
  indexArticle Ask.ascii id (fun _ => none) answering (List.replicate 300 'a') none

theorem order_kept_iff_longSection : ∃ chunks, indexLong = some chunks ∧ 1 < chunks.length ∧
    chunks.Pairwise (fun a b => a.chunkIndex < b.chunkIndex) ∧ OpensDocument 0 chunks := by
  have hlong : indexLong.any (fun chunks => 1 < chunks.length) = true := by decide +kernel
  obtain ⟨chunks, hrun, hlength⟩ := (Option.any_eq_true _ _).mp hlong
  exact ⟨chunks, hrun, of_decide_eq_true hlength, (order_kept_iff 0 hrun).1.mpr (by decide +kernel)⟩

/-- Two sections: the first chunk of the second has the number of the first of all. -/
theorem order_lost :
    ¬ ∀ (U : Unicode) (lower : Text → Text) (matchSourcePage : Text → Option ℤ) (e : Embedder)
      (body : Text) (source : Option Source) (chunks : List ArticleChunk),
      indexArticle U lower matchSourcePage e body source = some chunks →
      chunks.Pairwise (fun a b => a.chunkIndex < b.chunkIndex) ∧ OpensDocument 0 chunks := by
  intro h
  have hrun : indexBody "One.\n## Two." = some ((indexBody "One.\n## Two.").getD []) := by
    decide +kernel
  exact absurd (h _ _ _ _ _ _ _ hrun).1 (by decide +kernel)

end QnscKb.Indexing
