import QnscKb.Ask.Conflicts
import QnscKb.Lib.Firsts
import Mathlib.Data.Finset.Card

/-!
# Ask — Contradictions

Which contradictions `_detect_explicit_conflicts` reports (`src/domain/ai_service.py`).  A label is
contradicted when two results of different articles give it different values, but the code compares
one entry of each article, the first it meets (`by_article.setdefault`).  A label's key is the text
its own letters fold to, and `lower` is `str.lower`.
-/

namespace QnscKb.Ask.Contradictions
open Firsts (firsts add)

/-! ### Facts -/

/-- A result, as far as the detection reads it: a key that is missing or `None` has no text. -/
structure FactResult where
  articleId : Option Text
  chunkId : Option Text
  contextText : Option Text
  parentText : Option Text
  deriving DecidableEq

/-- `str(result.get("article_id") or result.get("chunk_id"))`. -/
def FactResult.article (result : FactResult) : Text :=
  Text.orElse result.articleId (result.chunkId.getD "None".toList)

/-- `str(result.get("context_text") or result.get("parent_text") or "")`. -/
def FactResult.text (result : FactResult) : Text :=
  Text.orElse result.contextText (Text.orElse result.parentText [])

/-- An entry of `facts`, with its key. -/
structure Fact where
  key : Text
  articleId : Text
  value : Text
  statement : Text
  source : FactResult
  deriving DecidableEq

structure FactConflict where
  fact : Text
  entries : List Fact

/-- `re.sub(r"\s+", " ", t)`. -/
def singleSpaced : Text → Text
  | [] => []
  | c :: t =>
    if Text.isSpace c then
      if t.head?.any Text.isSpace then singleSpaced t else ' ' :: singleSpaced t
    else c :: singleSpaced t

section Detection

variable (U : Unicode) (lower : Text → Text)

/-- `re.sub(r"\s+", " ", t.strip().lower())`. -/
def folded (t : Text) : Text := singleSpaced (lower (Text.strip t))

/-- `_EXPLICIT_FACT_RE.finditer` on a result's text: `skip` characters belong to the last match.
The label is its own letters, without the white space the match starts with. -/
def factsIn (result : FactResult) : Nat → Bool → Text → List Fact
  | _, _, [] => []
  | skip + 1, _, c :: t => factsIn result skip (c == '\n') t
  | 0, lineStart, c :: t =>
    match if lineStart then factAt U (c :: t) else none with
    | some (label, value, n) =>
      { key := folded lower ((Text.lstrip (c :: t)).take label.text.length)
        articleId := result.article
        value := folded lower value
        statement := Text.strip ((c :: t).take n)
        source := result } :: factsIn result (n - 1) (c == '\n') t
    | none => factsIn result 0 (c == '\n') t

def facts (results : List FactResult) : List Fact :=
  results.flatMap fun result => factsIn U lower result 0 true result.text

def entriesOf (facts : List Fact) (key : Text) : List Fact :=
  facts.filter fun entry => entry.key == key

/-- `by_article`, filled by `setdefault`. -/
def byArticle (entries : List Fact) : List Fact := entries.foldl (add Fact.articleId) []

/-- `_detect_explicit_conflicts`: the keys stand in the order they were first met. -/
def detectExplicitConflicts (results : List FactResult) : List FactConflict :=
  let facts := facts U lower results
  ((facts.foldl (add Fact.key) []).map Fact.key).filterMap fun key =>
    let byArticle := byArticle (entriesOf facts key)
    if 1 < byArticle.length ∧ 1 < (byArticle.map Fact.value).dedup.length then
      some { fact := key, entries := byArticle }
    else none

end Detection

variable {U : Unicode} {lower : Text → Text}

theorem byArticle_eq (entries : List Fact) : byArticle entries = firsts Fact.articleId entries :=
  Firsts.foldl_add_nil entries

theorem values_iff {entries : List Fact} : 1 < (entries.map Fact.value).dedup.length ↔
    ∃ e ∈ entries, ∃ e' ∈ entries, e.value ≠ e'.value := by
  rw [← List.card_toFinset, Finset.one_lt_card]
  simp

variable {results : List FactResult}

theorem mem_detected {conflict : FactConflict} :
    conflict ∈ detectExplicitConflicts U lower results ↔
      conflict.entries =
          firsts Fact.articleId (entriesOf (facts U lower results) conflict.fact) ∧
        ∃ e ∈ conflict.entries, ∃ e' ∈ conflict.entries, e.value ≠ e'.value := by
  simp only [detectExplicitConflicts, byArticle_eq, Firsts.foldl_add_nil, List.mem_filterMap]
  constructor
  · rintro ⟨key, -, hkey⟩
    split at hkey
    · next h =>
      obtain rfl := Option.some.inj hkey
      exact ⟨rfl, values_iff.mp h.2⟩
    · cases hkey
  · rintro ⟨hentries, e, he, e', he', hne⟩
    have hlen : 1 < (firsts Fact.articleId
        (entriesOf (facts U lower results) conflict.fact)).length := by
      rw [← hentries]
      have hvalues := values_iff.mpr ⟨e, he, e', he', hne⟩
      exact hvalues.trans_le
        (((List.dedup_sublist _).length_le).trans_eq (List.length_map Fact.value))
    have hfact := List.mem_filter.mp (Firsts.mem_of_mem_firsts (hentries ▸ he))
    refine ⟨conflict.fact, ?_, ?_⟩
    · obtain ⟨first, hfirst, hkey⟩ : ∃ first ∈ firsts Fact.key (facts U lower results),
          first.key = e.key := Firsts.exists_mem_firsts hfact.1
      refine List.mem_map.mpr ⟨first, hfirst, hkey.trans ?_⟩
      simpa using hfact.2
    · rw [if_pos ⟨hlen, hentries ▸ values_iff.mpr ⟨e, he, e', he', hne⟩⟩, ← hentries]

/-! ### The property -/

/-- Two results of different articles give a label different values. -/
def Contradicted (facts : List Fact) (key : Text) : Prop :=
  ∃ e ∈ facts, ∃ e' ∈ facts, (e.key = key ∧ e'.key = key) ∧
    e.articleId ≠ e'.articleId ∧ e.value ≠ e'.value

/-- An entry before which its article says nothing of its label. -/
def Opens (facts : List Fact) (e : Fact) : Prop :=
  ∃ before after, facts = before ++ e :: after ∧
    ∀ d ∈ before, d.key = e.key → d.articleId ≠ e.articleId

variable (U lower) in
/-- A label is reported exactly when it is contradicted, and what is reported shows it. -/
structure Detected (results : List FactResult) : Prop where
  reported : ∀ key, (∃ conflict ∈ detectExplicitConflicts U lower results, conflict.fact = key) ↔
    Contradicted (facts U lower results) key
  shown : ∀ conflict ∈ detectExplicitConflicts U lower results,
    ∃ e ∈ conflict.entries, ∃ e' ∈ conflict.entries, e.value ≠ e'.value

theorem mem_firsts_entriesOf {facts : List Fact} {key : Text} {e : Fact} :
    e ∈ firsts Fact.articleId (entriesOf facts key) ↔ e.key = key ∧ Opens facts e := by
  rw [Firsts.mem_firsts_iff]
  constructor
  · rintro ⟨a, b, hsplit, ha⟩
    obtain ⟨before, rest, rfl, hbefore, hrest⟩ := List.filter_eq_append_iff.mp hsplit
    obtain ⟨between, after, rfl, hbetween, hkey, -⟩ := List.filter_eq_cons_iff.mp hrest
    have hkey : e.key = key := by simpa using hkey
    refine ⟨hkey, before ++ between, after, by simp, fun d hd hsame => ?_⟩
    have hd' : (d.key == key) = true := by rw [hsame, hkey, beq_self_eq_true]
    rcases List.mem_append.mp hd with hd | hd
    · exact ha d (hbefore ▸ List.mem_filter.mpr ⟨hd, hd'⟩)
    · exact absurd hd' (hbetween d hd)
  · rintro ⟨hkey, before, after, rfl, hbefore⟩
    refine ⟨entriesOf before key, entriesOf after key, ?_, fun d hd => ?_⟩
    · rw [entriesOf, List.filter_append, List.filter_cons_of_pos (by simpa using hkey)]
      rfl
    · obtain ⟨hd, hsame⟩ := List.mem_filter.mp hd
      exact hbefore d hd ((by simpa using hsame : d.key = key).trans hkey.symm)

theorem Opens.mem {facts : List Fact} {e : Fact} (h : Opens facts e) : e ∈ facts := by
  obtain ⟨before, after, rfl, -⟩ := h
  exact List.mem_append_right before List.mem_cons_self

/-- **What is reported**: the labels of which the first entries of two articles differ. -/
theorem label_reported_iff {key : Text} :
    (∃ conflict ∈ detectExplicitConflicts U lower results, conflict.fact = key) ↔
      ∃ e e', (e.key = key ∧ e'.key = key) ∧ (Opens (facts U lower results) e ∧
        Opens (facts U lower results) e') ∧ e.value ≠ e'.value := by
  constructor
  · rintro ⟨conflict, hconflict, rfl⟩
    obtain ⟨hentries, e, he, e', he', hne⟩ := mem_detected.mp hconflict
    rw [hentries] at he he'
    obtain ⟨hkey, hopens⟩ := mem_firsts_entriesOf.mp he
    obtain ⟨hkey', hopens'⟩ := mem_firsts_entriesOf.mp he'
    exact ⟨e, e', ⟨hkey, hkey'⟩, ⟨hopens, hopens'⟩, hne⟩
  · rintro ⟨e, e', ⟨hkey, hkey'⟩, ⟨hopens, hopens'⟩, hne⟩
    refine ⟨⟨key, firsts Fact.articleId (entriesOf (facts U lower results) key)⟩,
      mem_detected.mpr ⟨rfl, e, ?_, e', ?_, hne⟩, rfl⟩
    · exact mem_firsts_entriesOf.mpr ⟨hkey, hopens⟩
    · exact mem_firsts_entriesOf.mpr ⟨hkey', hopens'⟩

theorem articleId_ne {facts : List Fact} {e e' : Fact} (hkey : e.key = e'.key)
    (hopens : Opens facts e) (hopens' : Opens facts e') (hne : e.value ≠ e'.value) :
    e.articleId ≠ e'.articleId := by
  intro harticle
  have hnodup : ((firsts Fact.articleId (entriesOf facts e.key)).map Fact.articleId).Nodup :=
    Firsts.nodup_firsts _
  have hmem := mem_firsts_entriesOf.mpr ⟨rfl, hopens⟩
  have hmem' := mem_firsts_entriesOf.mpr ⟨hkey.symm, hopens'⟩
  exact hne (congrArg Fact.value (List.inj_on_of_nodup_map hnodup hmem hmem' harticle))

/-- **Sound**: a label that is reported is contradicted. -/
theorem detected_sound {conflict : FactConflict}
    (h : conflict ∈ detectExplicitConflicts U lower results) :
    Contradicted (facts U lower results) conflict.fact := by
  obtain ⟨e, e', ⟨hkey, hkey'⟩, ⟨hopens, hopens'⟩, hne⟩ := label_reported_iff.mp ⟨conflict, h, rfl⟩
  exact ⟨e, hopens.mem, e', hopens'.mem, ⟨hkey, hkey'⟩,
    articleId_ne (hkey.trans hkey'.symm) hopens hopens' hne, hne⟩

/-- **Conflict detection** reports exactly the contradicted labels where the first entries of two
articles differ on each. -/
theorem detected_iff (U : Unicode) (lower : Text → Text) (results : List FactResult) :
    Detected U lower results ↔ ∀ key, Contradicted (facts U lower results) key →
      ∃ e e', (e.key = key ∧ e'.key = key) ∧ (Opens (facts U lower results) e ∧
        Opens (facts U lower results) e') ∧ e.value ≠ e'.value := by
  constructor
  · intro h key hkey
    exact label_reported_iff.mp ((h.reported key).mpr hkey)
  · intro h
    refine ⟨fun key => ⟨?_, fun hkey => label_reported_iff.mpr (h key hkey)⟩,
      fun conflict hconflict => ?_⟩
    · rintro ⟨conflict, hconflict, rfl⟩
      exact detected_sound hconflict
    · exact (mem_detected.mp hconflict).2

def passage (article text : String) : FactResult where
  articleId := some article.toList
  chunkId := some article.toList
  contextText := some text.toList
  parentText := none

/-- An article that states a label as another does, and then otherwise. -/
def amendedPolicy : List FactResult :=
  [passage "a" "Status: draft\nStatus: final", passage "b" "Status: draft"]

/-- **The second status of an article is not compared**: the two articles contradict each other, and
nothing is reported. -/
theorem second_status_unseen : ¬Detected ascii (fun t => t.map Char.toLower) amendedPolicy := by
  intro h
  have hnone : detectExplicitConflicts ascii (fun t => t.map Char.toLower) amendedPolicy = [] :=
    List.isEmpty_iff.mp (by decide +kernel)
  have hfacts : (facts ascii (fun t => t.map Char.toLower) amendedPolicy).map
      (fun e => (e.key, e.articleId, e.value)) =
        [("status".toList, "a".toList, "draft".toList), ("status".toList, "a".toList, "final".toList),
          ("status".toList, "b".toList, "draft".toList)] := by
    decide +kernel
  have hfound : ∀ fact ∈ [("status".toList, "a".toList, "final".toList),
      ("status".toList, "b".toList, "draft".toList)],
      ∃ e ∈ facts ascii (fun t => t.map Char.toLower) amendedPolicy,
        (e.key, e.articleId, e.value) = fact := by
    intro fact hfact
    refine List.mem_map.mp (hfacts ▸ ?_)
    exact List.mem_cons_of_mem _ hfact
  obtain ⟨e, he, hfinal⟩ := hfound _ List.mem_cons_self
  obtain ⟨e', he', hdraft⟩ := hfound _ (List.mem_cons_of_mem _ List.mem_cons_self)
  have hcontradicted : Contradicted (facts ascii (fun t => t.map Char.toLower) amendedPolicy)
      "status".toList := by
    simp only [Prod.mk.injEq] at hfinal hdraft
    refine ⟨e, he, e', he', ⟨hfinal.1, hdraft.1⟩, ?_, ?_⟩
    · rw [hfinal.2.1, hdraft.2.1]
      decide
    · rw [hfinal.2.2, hdraft.2.2]
      decide
  obtain ⟨conflict, hconflict, -⟩ := (h.reported _).mpr hcontradicted
  cases hconflict

end QnscKb.Ask.Contradictions
