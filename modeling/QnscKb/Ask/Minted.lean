import QnscKb.Ask.Unmarked

/-!
# Ask — Minted

Which outputs and passages mint a marker.  Unknown markers are taken out of the grounded section and
all markers out of the extended one, both before a passage is put under a refusal; the extended
section is stripped once more after it is normalised.
-/

namespace QnscKb.Ask

open Brackets (runs replace Inside)

variable {T : Tables} {U : Unicode} {S : Settings} {language : Language} {results : List ContextRow}
  {raw : Text}

/-! ### The sections of an output -/

section Sections

variable (U : Unicode) (S : Settings) (results : List ContextRow) (raw : Text)

/-- The grounded section of an output, without its provenance lines. -/
def groundedOf : Text := stripSourceMetadata U (splitAnswerSections U raw).1

/-- The extended section of an output, without its provenance lines. -/
def extendedOf : Text := stripSourceMetadata U (splitAnswerSections U raw).2

/-- The grounded section has a marker of no passage. -/
def hasStray : Bool := hasUnknown U results (groundedOf U raw)

/-- A section, without unknown markers where the grounded section has any. -/
def withoutStrays (t : Text) : Text :=
  if hasStray U results raw then stripUnknownMarkers U (knownIds results) t else t

/-- The output is a refusal that a passage is offered under. -/
def offers : Bool := isGroundingRefusal U (groundedOf U raw) && topConfident S results

/-- The grounded section is replaced: it cites no passage and refuses nothing. -/
def replaced : Bool :=
  let grounded := withoutStrays U results raw (groundedOf U raw)
  (extractCitationIds U grounded).isEmpty && !results.isEmpty && !isGroundingRefusal U grounded

def showsExtended : Bool :=
  !replaced U results raw &&
    (!isGroundingRefusal U (withoutStrays U results raw (groundedOf U raw)) ||
      S.ragAllowExtendedOnRefusal) &&
    S.ragEnableExtendedSection

end Sections

variable (U S results raw) in
def draft : Draft := draftOf U results (cleanedSections U S raw)

theorem cleanedSections_eq : cleanedSections U S raw = (groundedOf U raw,
    if S.ragEnableExtendedSection then stripCitationMarkers U (extendedOf U raw) else []) := by
  rw [cleanedSections, groundedOf, extendedOf]

@[simp] theorem draft_grounded :
    (draft U S results raw).grounded = withoutStrays U results raw (groundedOf U raw) := by
  simp only [draft, draftOf, cleanedSections_eq, withoutStrays, hasStray]
  congr

@[simp] theorem draft_unknown : (draft U S results raw).unknown = hasStray U results raw := by
  simp only [draft, draftOf, cleanedSections_eq, hasStray]

theorem draft_extended (h : S.ragEnableExtendedSection = true) :
    (draft U S results raw).extended =
      withoutStrays U results raw (stripCitationMarkers U (extendedOf U raw)) := by
  simp only [draft, draftOf, cleanedSections_eq, if_pos h]
  congr

@[simp] theorem draft_isUncited :
    (draft U S results raw).isUncited U results = replaced U results raw := by
  simp only [Draft.isUncited, Draft.sourceMatches, Draft.isRefusal, draft_grounded, replaced]

theorem draft_keepsExtended : ((draft U S results raw).keepsExtended U S results = true ∧
    S.ragEnableExtendedSection = true) ↔ showsExtended U S results raw = true := by
  simp only [Draft.keepsExtended, Draft.isRefusal, draft_isUncited, draft_grounded, showsExtended,
    Bool.and_eq_true]

theorem hasStray_iff : hasStray U results raw = true ↔
    ∃ n ∈ readIds U (groundedOf U raw), n ∉ knownIds results := by
  simp [hasStray, hasUnknown, List.any_eq_true]

/-- A refusal has no marker, and so none of no passage. -/
theorem hasStray_of_refusal (h : isGroundingRefusal U (groundedOf U raw) = true) :
    hasStray U results raw = false := by
  rw [Bool.eq_false_iff]
  intro hstray
  obtain ⟨n, hn, -⟩ := hasStray_iff.mp hstray
  have hread := readIds_of_isRefusal (U := U) (d := ⟨groundedOf U raw, [], false⟩) h
  rw [hread] at hn
  cases hn

@[simp] theorem draft_isOffered :
    (draft U S results raw).isOffered U S results = offers U S results raw := by
  cases hstray : hasStray U results raw with
  | false =>
    have hsame : withoutStrays U results raw (groundedOf U raw) = groundedOf U raw := by
      rw [withoutStrays, hstray, if_neg Bool.false_ne_true]
    simp [Draft.isOffered, Draft.isRefusal, hsame, hstray, offers]
  | true =>
    -- what is refused cites nothing, and then the filter took its markers out
    have hnot : (draft U S results raw).isOffered U S results = false := by
      rw [Bool.eq_false_iff]
      intro h
      have hempty : (draft U S results raw).sourceMatches U = [] :=
        extractCitationIds_eq_nil.mpr (readIds_of_isRefusal (isRefusal_of_isOffered h))
      simp [Draft.isOffered, hempty, hstray] at h
    have hcites : isGroundingRefusal U (groundedOf U raw) = false := by
      rw [Bool.eq_false_iff]
      intro hrefusal
      rw [hasStray_of_refusal hrefusal] at hstray
      cases hstray
    rw [hnot, offers, hcites, Bool.false_and]

variable (U results raw) in
/-- **No bracket of the grounded section turns into a marker**: what the filter takes for no
citation names passages only once its blanks are folded. -/
def Settles : Prop :=
  hasStray U results raw = true →
    ∀ inner ∈ loose U (knownIds results) (groundedOf U raw), ∀ n, Names U inner n →
      n ∈ knownIds results

/-- **Passages only** are read in the grounded section where no bracket of it turns into a marker. -/
theorem known_iff : (∀ n ∈ readIds T.toUnicode
      (withoutStrays T.toUnicode results raw (groundedOf T.toUnicode raw)), n ∈ knownIds results) ↔
    Settles T.toUnicode results raw := by
  cases hstray : hasStray T.toUnicode results raw with
  | false =>
    have hknown : ∀ n ∈ readIds T.toUnicode (groundedOf T.toUnicode raw), n ∈ knownIds results := by
      intro n hn
      by_contra hnot
      rw [hasStray_iff.mpr ⟨n, hn, hnot⟩] at hstray
      cases hstray
    simpa [withoutStrays, Settles, hstray] using hknown
  | true =>
    simp only [withoutStrays, Settles, hstray, if_true, mem_readIds_stripped, forall_const]
    constructor
    · exact fun h inner hinner n hn => h n (.inl ⟨inner, hinner, hn⟩)
    · rintro h n (⟨inner, hinner, hn⟩ | ⟨inner, -, -, -, hn⟩)
      · exact h inner hinner n hn
      · exact (mem_keptIds.mp hn).2

theorem readIds_eq_nil_iff {t : Text} :
    readIds U t = [] ↔ ∀ inner ∈ runs t, isCitation U inner = false := by
  rw [List.eq_nil_iff_forall_not_mem]
  simp only [mem_readIds_iff]
  constructor
  · intro h inner hinner
    rw [Bool.eq_false_iff]
    intro hcitation
    have hids := hcitation
    rw [isCitation, Bool.and_eq_true, Bool.not_eq_true', List.isEmpty_eq_false_iff] at hids
    obtain ⟨n, hn⟩ := List.exists_mem_of_ne_nil _ hids.2
    exact h n ⟨inner, hinner, hcitation, hn⟩
  · rintro h n ⟨inner, hinner, hcitation, -⟩
    rw [h inner hinner] at hcitation
    cases hcitation

/-! ### The extended section -/

variable (U) in
/-- A bracket the first stripping leaves: one around the markers it takes out, or one that is none. -/
def Leaves (t inner : Text) : Prop :=
  Inside (unmark U) t inner ∨ inner ∈ runs t ∧ citationMarker U inner = false

variable (U results raw) in
def filtered (inner : Text) : Text :=
  if hasStray U results raw then foldBlanks (collapseBlanks inner) else collapseBlanks inner

variable (U results raw) in
/-- No later pass takes out a bracket the first one leaves. -/
structure Final (inner : Text) : Prop where
  filter : hasStray U results raw = true →
    keepKnown U (knownIds results) (collapseBlanks inner) = none
  strip : citationMarker U (filtered U results raw inner) = false

theorem mem_runs_stripped {t y : Text} : y ∈ runs (stripCitationMarkers T.toUnicode t) ↔
    ∃ inner, collapseBlanks inner = y ∧ Leaves T.toUnicode t inner := by
  have hstrip : stripCitationMarkers T.toUnicode t =
      Text.strip (collapseBlanks (replace (unmark T.toUnicode) t)) := rfl
  rw [hstrip, runs_strip, mem_runs_stripCitationMarkers]
  rfl

theorem mem_runs_withoutStrays {t y : Text}
    (h : hasStray U results raw = true → ∀ r ∈ runs t, keepKnown U (knownIds results) r = none) :
    y ∈ runs (withoutStrays U results raw t) ↔
      ∃ r ∈ runs t, (if hasStray U results raw then foldBlanks r else r) = y := by
  cases hstray : hasStray U results raw with
  | false => simp [withoutStrays, hstray]
  | true =>
    have hstrip : stripUnknownMarkers U (knownIds results) t =
        Text.strip (foldBlanks (replace (keepKnown U (knownIds results)) t)) := rfl
    simp only [withoutStrays, hstray, if_true, hstrip, runs_strip, runs_foldBlanks, List.mem_map,
      Brackets.mem_runs_replace_of_none (rewrites_keepKnown _) (h hstray)]

theorem leftoverIds_of_none {t : Text} (h : ∀ r ∈ runs t, citationMarker T.toUnicode r = false) :
    leftoverIds T.toUnicode t = [] ↔
      ∀ r ∈ runs t, isCitation T.toUnicode (collapseBlanks r) = false := by
  have hnone : ∀ r ∈ runs t, unmark T.toUnicode r = none := by
    intro r hr
    rw [unmark, h r hr, if_neg Bool.false_ne_true]
  have hleft : leftoverIds T.toUnicode t =
      readIds T.toUnicode (collapseBlanks (replace (unmark T.toUnicode) t)) := rfl
  rw [hleft, readIds_eq_nil_iff, runs_collapseBlanks]
  simp only [List.forall_mem_map, Brackets.mem_runs_replace_of_none rewrites_unmark hnone]

/-- **Nothing is read in the extended section** exactly where no bracket that its first stripping
leaves reads as a citation. -/
theorem leftoverIds_eq_nil_iff
    (hlone : hasLoneBracket true (Text.strip (withoutStrays T.toUnicode results raw
      (stripCitationMarkers T.toUnicode (extendedOf T.toUnicode raw)))) = false)
    (hfinal : ∀ inner, Leaves T.toUnicode (extendedOf T.toUnicode raw) inner →
      Final T.toUnicode results raw inner) :
    leftoverIds T.toUnicode (normalizeAnswerMarkdown T.toUnicode (withoutStrays T.toUnicode results
      raw (stripCitationMarkers T.toUnicode (extendedOf T.toUnicode raw)))) = [] ↔
    ∀ inner, Leaves T.toUnicode (extendedOf T.toUnicode raw) inner →
      isCitation T.toUnicode (collapseBlanks (filtered T.toUnicode results raw inner)) = false := by
  have hread : ∀ y, y ∈ runs (normalizeAnswerMarkdown T.toUnicode (withoutStrays T.toUnicode results
      raw (stripCitationMarkers T.toUnicode (extendedOf T.toUnicode raw)))) ↔
      ∃ inner, Leaves T.toUnicode (extendedOf T.toUnicode raw) inner ∧
        filtered T.toUnicode results raw inner = y := by
    intro y
    rw [runs_normalizeAnswerMarkdown, runs_dropLoneBrackets hlone, mem_runs_withoutStrays]
    · simp only [mem_runs_stripped]
      constructor
      · rintro ⟨_, ⟨inner, rfl, hinner⟩, hy⟩
        exact ⟨inner, hinner, hy⟩
      · rintro ⟨inner, hinner, hy⟩
        exact ⟨_, ⟨inner, rfl, hinner⟩, hy⟩
    · intro hstray r hr
      obtain ⟨inner, rfl, hinner⟩ := mem_runs_stripped.mp hr
      exact (hfinal inner hinner).filter hstray
  rw [leftoverIds_of_none]
  · simp only [hread]
    constructor
    · exact fun h inner hinner => h _ ⟨inner, hinner, rfl⟩
    · rintro h _ ⟨inner, hinner, rfl⟩
      exact h inner hinner
  · intro y hy
    obtain ⟨inner, hinner, rfl⟩ := (hread y).mp hy
    exact (hfinal inner hinner).strip

/-! ### The whole answer -/

section Answer

variable (U : Unicode) (S : Settings) (language : Language) (results : List ContextRow) (raw : Text)

/-- The answer is the model's: no passages contradict each other, and its output is not blocked. -/
def FromModel : Prop := detectExplicitConflicts U results = [] ∧ passesGuardrail U S raw = true

/-- **One pass is enough**: no line shown is a lone `[` once its markers are out, and what the first
stripping leaves of the extended section, no later pass takes out. -/
structure OnePass : Prop where
  grounded : replaced U results raw = false → offers U S results raw = false →
    hasLoneBracket true (Text.strip (withoutStrays U results raw (groundedOf U raw))) = false
  extended : showsExtended U S results raw = true → hasLoneBracket true (Text.strip
    (withoutStrays U results raw (stripCitationMarkers U (extendedOf U raw)))) = false
  left : showsExtended U S results raw = true → ∀ inner, Leaves U (extendedOf U raw) inner →
    Final U results raw inner

/-- No bracket is a marker that was not one: of the grounded section, of a refusal and the passage
under it, and of what is left of the extended section. -/
structure BracketsUnminted : Prop where
  grounded : Settles U results raw
  offered : offers U S results raw = true →
    ∀ inner ∈ runs (dropLoneBrackets .lineStart (Text.strip
      (groundedOf U raw ++ results.head?.elim [] (relatedPassage U language)))),
      isCitation U inner = false
  extended : showsExtended U S results raw = true → ∀ inner, Leaves U (extendedOf U raw) inner →
    isCitation U (collapseBlanks (filtered U results raw inner)) = false

/-- **Nothing is minted**: in a conflict, by the lines of its entries; else by the brackets of an
output for which one pass is enough. -/
structure Unminted : Prop where
  conflict : ConflictUnminted U (detectExplicitConflicts U results)
  brackets : FromModel U S results raw → BracketsUnminted U S language results raw
  onePass : FromModel U S results raw → OnePass U S results raw

end Answer

theorem withoutStrays_of_offers (h : offers U S results raw = true) :
    withoutStrays U results raw (groundedOf U raw) = groundedOf U raw := by
  rw [offers, Bool.and_eq_true] at h
  rw [withoutStrays, hasStray_of_refusal h.1, if_neg Bool.false_ne_true]

/-- What is read of the draft, by the brackets of the output. -/
theorem readBack_iff (h : OnePass T.toUnicode S results raw) :
    ReadBack T.toUnicode S language results (draft T.toUnicode S results raw) ↔
      BracketsUnminted T.toUnicode S language results raw := by
  have hoffered : ((draft T.toUnicode S results raw).isOffered T.toUnicode S results = true →
      rereadIds T.toUnicode ((draft T.toUnicode S results raw).grounded ++
        results.head?.elim [] (relatedPassage T.toUnicode language)) = []) ↔
      (offers T.toUnicode S results raw = true →
        ∀ inner ∈ runs (dropLoneBrackets .lineStart (Text.strip (groundedOf T.toUnicode raw ++
          results.head?.elim [] (relatedPassage T.toUnicode language)))),
          isCitation T.toUnicode inner = false) := by
    rw [draft_isOffered, draft_grounded]
    refine imp_congr_right fun hoffers => ?_
    rw [withoutStrays_of_offers hoffers, rereadIds, readIds_eq_nil_iff]
  have hextended : ((draft T.toUnicode S results raw).keepsExtended T.toUnicode S results = true →
      S.ragEnableExtendedSection = true → leftoverIds T.toUnicode (normalizeAnswerMarkdown
        T.toUnicode (draft T.toUnicode S results raw).extended) = []) ↔
      (showsExtended T.toUnicode S results raw = true →
        ∀ inner, Leaves T.toUnicode (extendedOf T.toUnicode raw) inner →
          isCitation T.toUnicode (collapseBlanks (filtered T.toUnicode results raw inner)) =
            false) := by
    rw [← draft_keepsExtended, and_imp]
    refine imp_congr_right fun hkept => imp_congr_right fun henabled => ?_
    have hshows := draft_keepsExtended.mp ⟨hkept, henabled⟩
    rw [draft_extended henabled, leftoverIds_eq_nil_iff (h.extended hshows) (h.left hshows)]
  have hgrounded : ((draft T.toUnicode S results raw).isUncited T.toUnicode results = false →
      (draft T.toUnicode S results raw).isOffered T.toUnicode S results = false →
      ∀ n, n ∈ rereadIds T.toUnicode (draft T.toUnicode S results raw).grounded ↔
        n ∈ readIds T.toUnicode (draft T.toUnicode S results raw).grounded ∧
          n ∈ knownIds results) ↔ Settles T.toUnicode results raw := by
    rw [draft_isUncited, draft_isOffered, draft_grounded, ← known_iff]
    constructor
    · intro hread n hn
      -- a section that is replaced or goes on with a passage has no marker
      cases hreplaced : replaced T.toUnicode results raw with
      | true =>
        rw [← draft_isUncited (S := S)] at hreplaced
        rw [← draft_grounded (S := S), (of_isUncited hreplaced).1] at hn
        cases hn
      | false =>
        cases hoffers : offers T.toUnicode S results raw with
        | true =>
          rw [← draft_isOffered] at hoffers
          rw [← draft_grounded (S := S),
            readIds_of_isRefusal (isRefusal_of_isOffered hoffers)] at hn
          cases hn
        | false =>
          have hsame := hread hreplaced hoffers n
          rw [rereadIds_eq_readIds (h.grounded hreplaced hoffers)] at hsame
          exact (hsame.mp hn).2
    · intro hknown hreplaced hoffers n
      rw [rereadIds_eq_readIds (h.grounded hreplaced hoffers)]
      exact ⟨fun hn => ⟨hn, hknown n hn⟩, And.left⟩
  constructor
  · exact fun hread => ⟨hgrounded.mp hread.grounded, hoffered.mp hread.offered,
      hextended.mp hread.extended⟩
  · exact fun hclean => ⟨hgrounded.mpr hclean.grounded, hoffered.mpr hclean.offered,
      hextended.mpr hclean.extended⟩

/-- **Markers**: an answer shows the markers of its citations, all of passages, and none in its
extended section, where nothing is minted; and where one pass is enough, nowhere else. -/
theorem answer_honest_iff (T : Tables) (S : Settings) (language : Language)
    (results : List ContextRow) (analytics : List Calculation) (artifacts : List Artifact)
    (raw : Text) :
    Honest T.toUnicode results (ask T.toUnicode S language results analytics artifacts raw) ∧
        (FromModel T.toUnicode S results raw → OnePass T.toUnicode S results raw) ↔
      Unminted T.toUnicode S language results raw := by
  rw [ask]
  split
  · next hnone =>
    have hempty : ConflictUnminted T.toUnicode (detectExplicitConflicts T.toUnicode results) := by
      simp [hnone, ConflictUnminted, shownEntries]
    rw [model_honest_iff]
    constructor
    · rintro ⟨hread, hone⟩
      exact ⟨hempty, fun hmodel => (readBack_iff (hone hmodel)).mp (hread hmodel.2), hone⟩
    · intro h
      exact ⟨fun hpasses => (readBack_iff (h.onePass ⟨hnone, hpasses⟩)).mpr
        (h.brackets ⟨hnone, hpasses⟩), h.onePass⟩
  · next hsome =>
    have hnot : ¬FromModel T.toUnicode S results raw := fun h => hsome h.1
    rw [conflict_honest_iff fun _ => source_of_mem_shownEntries]
    constructor
    · exact fun h => ⟨h.1, fun hmodel => absurd hmodel hnot, h.2⟩
    · exact fun h => ⟨h.conflict, h.onePass⟩

/-- A passage whose title holds a marker of no passage. -/
def mintingRow : ContextRow where
  source := 1
  articleId := 1
  chunkId := 1
  childChunkIds := [1]
  parentChunkId := none
  score := 1
  title := "Leave [C7]".toList
  lesson := false
  heading := none
  sectionRef := none
  pageNumber := none
  pageEvidence := []
  lastReviewed := none
  ownerEmail := none
  contextText := "Leave is paid.".toList

/-- A refusal shows the title of the passage under it, and so its marker. -/
theorem title_mints_marker :
    ¬ Honest ascii [mintingRow]
      (ask ascii plainSettings .en [mintingRow] [] [] refusalOutput) := by
  have hsections : cleanedSections ascii plainSettings refusalOutput = (refusalOutput, []) := by
    decide +kernel
  have hpass : passesGuardrail ascii plainSettings refusalOutput = true := by decide +kernel
  have hnone : detectExplicitConflicts ascii [mintingRow] = [] :=
    List.isEmpty_iff.mp (by decide +kernel)
  have hoffered : (draftOf ascii [mintingRow] (refusalOutput, [])).isOffered ascii plainSettings
    [mintingRow] = true := by decide +kernel
  have hread : 7 ∈ rereadIds ascii ((draftOf ascii [mintingRow] (refusalOutput, [])).grounded ++
      relatedPassage ascii .en mintingRow) := by decide +kernel
  rw [ask, hnone, model_honest_iff, hsections]
  intro h
  have hempty := (h hpass).offered hoffered
  rw [List.head?_cons, Option.elim_some] at hempty
  rw [hempty] at hread
  cases hread

end QnscKb.Ask
