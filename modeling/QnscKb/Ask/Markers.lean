import QnscKb.Ask.Answer
import QnscKb.Ask.Reread
import Mathlib.Algebra.Group.Nat.Defs

/-!
# Ask — Markers

Whether the markers a reader sees are the citations an answer carries (`Honest`): of a conflict by
the lines of its entries (`conflict_honest_iff`), of a draft by what is read of it once it is put
together (`ReadBack`).
-/

namespace QnscKb.Ask

open Brackets (runs runsFrom openAfter Plain)

variable {U : Unicode} {S : Settings}

/-! ### Ids -/

theorem intOf_toDigits (n : Nat) : intOf U (Nat.toDigits 10 n) = some n := by
  have hfold : ∀ (ds : List Char), (∀ c ∈ ds, c.isDigit = true) → ∀ a,
      ds.foldl (fun n c => n.bind fun n => (U.digit c).map fun d => 10 * n + d) (some a) =
        some (Nat.ofDigitChars 10 ds a) := by
    intro ds
    induction ds with
    | nil => intro _ a; simp
    | cons c ds ih =>
      intro h a
      obtain ⟨hc, hds⟩ := List.forall_mem_cons.mp h
      rw [Nat.ofDigitChars_cons, ← ih hds]
      simp [U.digit_of_isDigit c hc]
  rw [intOf, hfold _ fun c hc => Nat.isDigit_of_mem_toDigits (by decide) (by decide) hc,
    Nat.ofDigitChars_ten_toDigits]

theorem wordSpansFrom_word (start place : Nat) (word t : Text) (hword : word ≠ [])
    (h : ∀ c ∈ t, U.word c = true) :
    wordSpansFrom U start place word t = [(start, word ++ t)] := by
  induction t generalizing place word with
  | nil => simp [wordSpansFrom, hword]
  | cons c t ih =>
    obtain ⟨hc, ht⟩ := List.forall_mem_cons.mp h
    rw [wordSpansFrom, if_pos hc, if_neg (by simpa using hword), ih _ _ (by simp) ht]
    simp

variable {n : Nat}

theorem isAlphanum_of_mem_sourceId {c : Char} (h : c ∈ sourceId n) : c.isAlphanum = true := by
  rcases List.mem_cons.mp h with rfl | hc
  · decide
  · simp [Char.isAlphanum, isDigit_of_mem_decimal hc]

/-- The marker of a source is one word. -/
theorem wordSpans_sourceId (n : Nat) : wordSpans U (sourceId n) = [(0, sourceId n)] := by
  have hword : ∀ c ∈ sourceId n, U.word c = true :=
    fun c hc => U.word_of_isAlphanum c (isAlphanum_of_mem_sourceId hc)
  obtain ⟨hc, hdigits⟩ := List.forall_mem_cons.mp hword
  rw [sourceId, wordSpans, wordSpansFrom, if_pos hc]
  exact wordSpansFrom_word _ _ _ _ (by simp) hdigits

theorem markerWord_sourceId (hn : n ≤ 999) : markerWord U (sourceId n) = some n := by
  have hlen : 1 ≤ (decimal n).length ∧ (decimal n).length ≤ 3 :=
    ⟨Nat.length_toDigits_pos, (Nat.length_toDigits_le_iff (by decide) (by decide)).mpr (by omega)⟩
  rw [sourceId, markerWord, if_pos ⟨.inl rfl, hlen⟩]
  exact intOf_toDigits n

/-- A marker of at most three digits names its source. -/
theorem markerIds_sourceId (hn : n ≤ 999) : markerIds U (sourceId n) = [n] := by
  have hfound : markersInBracket U (sourceId n) = [n] := by
    simp [markersInBracket, wordSpans_sourceId, markerWord_sourceId hn]
  simp [markerIds, hfound]

theorem intOf_bound {digits : Text} (h : intOf U digits = some n) : n < 10 ^ digits.length := by
  have hnone : ∀ ds : List Char, ds.foldl
      (fun n c => n.bind fun n => (U.digit c).map fun d => 10 * n + d) none = none := by
    intro ds
    induction ds with
    | nil => rfl
    | cons c ds ih => simpa using ih
  have hfold : ∀ (ds : List Char) (a : Nat), ds.foldl
      (fun n c => n.bind fun n => (U.digit c).map fun d => 10 * n + d) (some a) = some n →
        n < (a + 1) * 10 ^ ds.length := by
    intro ds
    induction ds with
    | nil =>
      intro a ha
      obtain rfl : a = n := Option.some.inj ha
      simp
    | cons c ds ih =>
      intro a ha
      cases hdigit : U.digit c with
      | none => simp [hdigit, hnone] at ha
      | some d =>
        have hd : d ≤ 9 := U.digit_le c d hdigit
        have hlt := ih (10 * a + d) (by simpa [hdigit] using ha)
        calc n < (10 * a + d + 1) * 10 ^ ds.length := hlt
          _ ≤ (10 * (a + 1)) * 10 ^ ds.length := Nat.mul_le_mul_right _ (by omega)
          _ = (a + 1) * 10 ^ (c :: ds).length := by
              rw [List.length_cons, Nat.pow_succ, Nat.mul_comm 10, Nat.mul_assoc,
                Nat.mul_comm 10]
  simpa using hfold digits 0 h

/-- A bare number names a source up to 999. -/
theorem legacyBare_le {inner : Text} (h : legacyBare U inner = some n) : n ≤ 999 := by
  have hdigit : ∀ c : Char, c.isDigit = true → c.toNat - 48 ≤ 9 := by
    intro c hc
    have hhi : c.toNat ≤ 57 := (Char.isDigit_iff_toNat.mp hc).2
    omega
  simp only [legacyBare] at h
  split at h
  · next hdigits =>
    obtain ⟨hlen, hall⟩ := hdigits
    rw [List.all_eq_true] at hall
    revert hlen hall h
    generalize Text.rstrip (afterSourceId U (Text.lstrip inner)) = digits
    intro h hlen hall
    rcases digits with _ | ⟨a, _ | ⟨b, _ | ⟨c, ds⟩⟩⟩
    · simp at hlen
    · have ha := hdigit a (hall a (by simp))
      simp at h
      omega
    · have ha := hdigit a (hall a (by simp))
      have hb := hdigit b (hall b (by simp))
      simp at h
      omega
    · simp at hlen
  · cases h

theorem le_of_mem_markerIds {inner : Text} (h : n ∈ markerIds U inner) : n ≤ 999 := by
  simp only [markerIds] at h
  split at h
  · exact legacyBare_le (Option.mem_toList.mp h)
  · obtain ⟨⟨start, word⟩, -, hword⟩ := List.mem_filterMap.mp h
    cases word with
    | nil => cases hword
    | cons c digits =>
      simp only [markerWord] at hword
      split at hword
      · next hmark =>
        have hlt := intOf_bound hword
        have hpow : 10 ^ digits.length ≤ 10 ^ 3 := Nat.pow_le_pow_right (by decide) hmark.2.2
        omega
      · cases hword

/-- No source beyond 999 is read. -/
theorem le_of_mem_readIds {t : Text} (h : n ∈ readIds U t) : n ≤ 999 := by
  obtain ⟨inner, -, hn⟩ := List.mem_flatMap.mp h
  exact le_of_mem_markerIds hn

/-! ### The lines of a conflict -/

variable (U) in
def entryIds (entry : FactEntry) : List Nat :=
  readIds U (dropLoneBrackets .lineStart (entryLine entry))

def shownEntries (conflicts : List Conflict) : List FactEntry := conflicts.flatMap Conflict.entries

def entryMarker (entry : FactEntry) : Text := '[' :: (sourceId entry.source.source ++ [']'])

theorem plain_sourceId (n : Nat) : Plain (sourceId n) := by
  intro c hc
  have halnum := isAlphanum_of_mem_sourceId hc
  refine ⟨?_, ?_⟩ <;>
    · rintro rfl
      exact absurd halnum (by decide)

theorem runs_entryMarker (entry : FactEntry) :
    runs (entryMarker entry) = [sourceId entry.source.source] := by
  have hplain := plain_sourceId entry.source.source
  rw [entryMarker, runs, Brackets.runsFrom_open, Brackets.runsFrom_append,
    Brackets.runsFrom_plain hplain, Brackets.openAfter_plain hplain, Brackets.runsFrom_close]
  simp

/-- An entry's line ends with its marker, whatever lone brackets stand in it. -/
theorem dropLoneBrackets_entryLine (entry : FactEntry) :
    ∃ x, dropLoneBrackets .lineStart (entryLine entry) = x ++ entryMarker entry := by
  have hline : entryLine entry =
      ("- ".toList ++ entry.statement ++ " — ".toList ++ entry.source.title ++ " ".toList) ++
        entryMarker entry := by
    have hopen : " [".toList = " ".toList ++ ['['] := rfl
    unfold entryLine entryMarker
    simp only [List.append_assoc]
    rfl
  rw [hline]
  refine dropLoneBrackets_append_tail (c := 'C') ?_ ?_ (by decide) _ _ nofun
  · have hno : '\n' ∉ sourceId entry.source.source := fun h =>
    absurd (isAlphanum_of_mem_sourceId h) (by decide)
    simp [entryMarker, hno]
  · rw [entryMarker, sourceId, List.cons_append, visible_cons (by decide), if_neg (by decide),
      visible_cons (by decide), if_neg (by decide)]
    simp

variable {entry : FactEntry}

/-- The line of an entry names its source. -/
theorem source_mem_entryIds (h : entry.source.source ≤ 999) :
    entry.source.source ∈ entryIds U entry := by
  obtain ⟨x, hx⟩ := dropLoneBrackets_entryLine entry
  have hcap : capped (sourceId entry.source.source) = true := by
    have hlen : (decimal entry.source.source).length ≤ 3 :=
      (Nat.length_toDigits_le_iff (by decide) (by decide)).mpr (by omega)
    simp [capped, sourceId]
    omega
  have hruns : runs (x ++ entryMarker entry) = runs x ++ [sourceId entry.source.source] := by
    rw [← runs_entryMarker, entryMarker, Brackets.runs_append_cons]
  rw [entryIds, hx, readIds, hruns]
  simp [hcap, markerIds_sourceId h]

theorem plain_heading (label : FactLabel) : Plain ("\n**".toList ++ label.heading ++ "**".toList) := by
  cases label <;> decide

theorem plain_conflictIntro (language : Language) : Plain (conflictIntro language) := by
  unfold conflictIntro
  split <;>
    · refine Plain.append ?_ ?_ <;>
        · rw [Text.toList_lit rfl]
          decide

theorem conflictIntro_ends (language : Language) :
    (∀ c ∈ (conflictIntro language).head?, Text.isSpace c = false) ∧
      ∃ a, conflictIntro language = a ++ ['.'] := by
  refine ⟨?_, List.getLast?_eq_some_iff.mp ?_⟩
  · intro c hc
    unfold conflictIntro at hc
    split at hc <;>
      · simp only [Text.toList_lit rfl, List.cons_append, List.head?_cons, Option.mem_def,
          Option.some.injEq] at hc
        subst hc
        decide
  · unfold conflictIntro
    split <;>
      · simp only [Text.toList_lit rfl]
        rfl

/-- No line of a conflict leaves a bracket open. -/
theorem conflictLine_closed {conflict : Conflict} {line : Text}
    (h : line ∈ conflictLines conflict) :
    (∃ a c, line = a ++ [c] ∧ Text.isSpace c = false) ∧
      openAfter none (dropLoneBrackets .lineStart line) = none := by
  rcases List.mem_cons.mp h with rfl | hentry
  · have hstars : "**".toList = ['*'] ++ ['*'] := Text.toList_lit rfl
    refine ⟨⟨"\n**".toList ++ conflict.fact.heading ++ ['*'], '*', ?_, by decide⟩, ?_⟩
    · rw [hstars, List.append_assoc _ ['*'] ['*']]
    · exact Brackets.openAfter_plain (Plain.dropLoneBrackets (plain_heading conflict.fact))
  · obtain ⟨entry, -, rfl⟩ := List.mem_map.mp hentry
    refine ⟨⟨_, ']', rfl, by decide⟩, ?_⟩
    obtain ⟨x, hx⟩ := dropLoneBrackets_entryLine entry
    rw [hx, entryMarker, ← List.cons_append, ← List.append_assoc]
    exact Brackets.openAfter_close _

theorem readIds_conflictLines (conflict : Conflict) :
    (conflictLines conflict).flatMap (fun line => readIds U (dropLoneBrackets .lineStart line)) =
      conflict.entries.flatMap (entryIds U) := by
  rw [conflictLines, List.flatMap_cons, List.flatMap_map,
    readIds_of_plain (Plain.dropLoneBrackets (plain_heading conflict.fact)), List.nil_append]
  rfl

/-- What is read of a conflict is what is read of its entries. -/
theorem rereadIds_conflictText (language : Language) (conflicts : List Conflict) :
    rereadIds U (conflictText language conflicts) =
      (shownEntries conflicts).flatMap (entryIds U) := by
  have hlines : ∀ line ∈ conflictIntro language :: conflicts.flatMap conflictLines,
      (∃ a c, line = a ++ [c] ∧ Text.isSpace c = false) ∧
        openAfter none (dropLoneBrackets .lineStart line) = none := by
    refine List.forall_mem_cons.mpr ⟨⟨?_, ?_⟩, fun line hline => ?_⟩
    · obtain ⟨a, ha⟩ := (conflictIntro_ends language).2
      exact ⟨a, '.', ha, by decide⟩
    · exact Brackets.openAfter_plain (Plain.dropLoneBrackets (plain_conflictIntro language))
    · obtain ⟨conflict, -, hline⟩ := List.mem_flatMap.mp hline
      exact conflictLine_closed hline
  have hstrip : Text.strip (conflictText language conflicts) = conflictText language conflicts := by
    refine Text.strip_eq_self ?_ ?_
    · intro c hc
      refine (conflictIntro_ends language).1 c ?_
      obtain ⟨a, ha⟩ := (conflictIntro_ends language).2
      cases hlines : conflicts.flatMap conflictLines with
      | nil => simpa [conflictText, hlines, Text.join] using hc
      | cons line lines =>
        rw [conflictText, hlines, Text.join_cons_cons, ha] at hc
        rw [ha]
        cases a <;> simpa using hc
    · obtain ⟨a, c, ht, hc⟩ := @Text.join_getLast ['\n'] _ _ (List.cons_ne_nil _ _)
        fun line hline => (hlines line hline).1
      rw [conflictText, ht]
      simpa using hc
  rw [rereadIds, hstrip, conflictText, dropLoneBrackets_join, readIds_join, List.map_cons,
    List.flatMap_cons, readIds_of_plain (Plain.dropLoneBrackets (plain_conflictIntro language)),
    List.nil_append, List.flatMap_map, List.flatMap_assoc]
  · simp only [readIds_conflictLines, shownEntries, List.flatMap_assoc]
  · intro line hline
    obtain ⟨l, hl, rfl⟩ := List.mem_map.mp hline
    exact (hlines l hl).2

/-! ### The claim of an answer -/

variable (U) in
/-- The markers of the grounded section are the citations, all of passages of the context; the
extended section has none. -/
structure Honest (results : List ContextRow) (p : AnswerPayload) : Prop where
  shown : ∀ n, n ∈ extractCitationIds U p.answerGrounded ↔ n ∈ p.citations.map Citation.source
  known : ∀ c ∈ p.citations, c.source ∈ knownIds results
  extended : extractCitationIds U p.answerExtended = []

variable (U) in
/-- The ids read in a text once its markers are out: numbers set off by white space, and brackets
that stood around markers. -/
def leftoverIds (t : Text) : List Nat :=
  readIds U (collapseBlanks
    (Brackets.replace (fun inner => if citationMarker U inner then some [] else none) t))

variable (U) in
/-- No line of a conflict holds a marker of a source that is not cited, and every source has a marker
of at most three digits. -/
def ConflictUnminted (conflicts : List Conflict) : Prop :=
  ∀ entry ∈ shownEntries conflicts, entry.source.source ≤ 999 ∧
    ∀ n ∈ entryIds U entry, n ∈ (shownEntries conflicts).map fun e => e.source.source

variable (U S) in
/-- What is read of a draft once a passage is put under it and it is normalised. -/
structure ReadBack (language : Language) (results : List ContextRow) (d : Draft) : Prop where
  grounded : d.isUncited U results = false → d.isOffered U S results = false →
    ∀ n, n ∈ rereadIds U d.grounded ↔ n ∈ readIds U d.grounded ∧ n ∈ knownIds results
  offered : d.isOffered U S results = true →
    rereadIds U (d.grounded ++ results.head?.elim [] (relatedPassage U language)) = []
  extended : d.keepsExtended U S results = true → S.ragEnableExtendedSection = true →
    leftoverIds U (normalizeAnswerMarkdown U d.extended) = []

variable (U S) in
def passesGuardrail (raw : Text) : Bool :=
  let sections := cleanedSections U S raw
  checkOutputGuardrail U (sections.1 ++ '\n' :: sections.2)

theorem extractCitationIds_eq_nil {t : Text} : extractCitationIds U t = [] ↔ readIds U t = [] := by
  simp [List.eq_nil_iff_forall_not_mem]

/-- What is left to be read of a stripped text. -/
theorem readIds_stripCitationMarkers (t : Text) :
    readIds U (stripCitationMarkers U t) = leftoverIds U t :=
  readIds_strip _

theorem extractCitationIds_extended {grounded extended : Text} {citations : List Citation} :
    extractCitationIds U (answerPayload U S grounded extended citations).answerExtended = [] ↔
      (S.ragEnableExtendedSection = true →
        leftoverIds U (normalizeAnswerMarkdown U extended) = []) := by
  rw [extractCitationIds_eq_nil, answerPayload]
  cases S.ragEnableExtendedSection with
  | false => simp [readIds, runs]
  | true => simp [readIds_stripCitationMarkers]

theorem extractCitationIds_extended_nil (grounded : Text) (citations : List Citation) :
    extractCitationIds U (answerPayload U S grounded [] citations).answerExtended = [] :=
  extractCitationIds_extended.mpr fun _ => rfl

/-! ### Conflicts -/

/-- The citations of a conflict are the sources of its entries. -/
theorem mem_conflictCitations {conflicts : List Conflict} :
    n ∈ (conflictCitations conflicts).map Citation.source ↔
      n ∈ (shownEntries conflicts).map fun e => e.source.source := by
  have hfold : ∀ (entries : List FactEntry) (seen : List Citation),
      n ∈ (entries.foldl (fun seen entry =>
        if seen.any fun c => c.source == entry.source.source then seen
        else seen ++ [citationOf entry.source]) seen).map Citation.source ↔
        n ∈ seen.map Citation.source ∨ n ∈ entries.map fun e => e.source.source := by
    intro entries
    induction entries with
    | nil => simp
    | cons entry entries ih =>
      intro seen
      rw [List.foldl_cons, ih, List.map_cons, List.mem_cons]
      split
      · next hany =>
        obtain ⟨c, hc, hsource⟩ := List.any_eq_true.mp hany
        have hmem : entry.source.source ∈ seen.map Citation.source :=
          List.mem_map.mpr ⟨c, hc, by simpa using hsource⟩
        refine ⟨fun h => h.imp_right .inr, ?_⟩
        rintro (h | rfl | h)
        · exact .inl h
        · exact .inl hmem
        · exact .inr h
      · simp [citationOf, or_assoc]
  simpa [conflictCitations, shownEntries] using hfold (shownEntries conflicts) []

/-- **A conflict's markers** are its citations exactly where no line of an entry mints one. -/
theorem conflict_honest_iff {results : List ContextRow} {language : Language}
    {conflicts : List Conflict}
    (hsource : ∀ entry ∈ shownEntries conflicts, entry.source ∈ results) :
    Honest U results (conflictPayload U S language conflicts) ↔ ConflictUnminted U conflicts := by
  have hread : ∀ n, n ∈ extractCitationIds U
        (conflictPayload U S language conflicts).answerGrounded ↔
      ∃ entry ∈ shownEntries conflicts, n ∈ entryIds U entry := by
    intro n
    rw [mem_extractCitationIds, conflictPayload, answerPayload, readIds_normalizeAnswerMarkdown,
      rereadIds_conflictText, List.mem_flatMap]
  refine ⟨fun h entry hentry => ?_, fun h => ⟨fun n => ?_, fun c hc => ?_, ?_⟩⟩
  · have hcited := fun n => (hread n).symm.trans ((h.shown n).trans mem_conflictCitations)
    obtain ⟨other, -, hother⟩ := (hcited entry.source.source).mpr (List.mem_map_of_mem hentry)
    exact ⟨le_of_mem_readIds hother, fun n hn => (hcited n).mp ⟨entry, hentry, hn⟩⟩
  · rw [hread]
    refine Iff.trans ⟨?_, fun hn => ?_⟩ mem_conflictCitations.symm
    · rintro ⟨entry, hentry, hn⟩
      exact (h entry hentry).2 n hn
    · obtain ⟨entry, hentry, rfl⟩ := List.mem_map.mp hn
      exact ⟨entry, hentry, source_mem_entryIds (h entry hentry).1⟩
  · obtain ⟨entry, hentry, hn⟩ := List.mem_map.mp
      (mem_conflictCitations.mp (List.mem_map_of_mem (f := Citation.source) hc))
    exact List.mem_map.mpr ⟨entry.source, hsource entry hentry, hn⟩
  · simp only [conflictPayload]
    exact extractCitationIds_extended_nil _ _

theorem mem_of_mem_firstByArticle {entries : List FactEntry} (h : entry ∈ firstByArticle entries) :
    entry ∈ entries := by
  have hfold : ∀ (entries seen : List FactEntry),
      entry ∈ entries.foldl (fun seen entry =>
        if seen.any fun e => e.source.articleId == entry.source.articleId then seen
        else seen ++ [entry]) seen → entry ∈ seen ∨ entry ∈ entries := by
    intro entries
    induction entries with
    | nil => exact fun seen h => .inl h
    | cons next entries ih =>
      intro seen h
      rcases ih _ h with h | h
      · simp only at h
        split at h
        · exact .inl h
        · rcases List.mem_append.mp h with h | h
          · exact .inl h
          · exact .inr (List.mem_cons.mpr (.inl (List.mem_singleton.mp h)))
      · exact .inr (List.mem_cons_of_mem _ h)
  simpa using hfold entries [] h

theorem source_of_mem_factsFrom {row : ContextRow} (t : Text) :
    ∀ {skip : Nat} {lineStart : Bool}, entry ∈ factsFrom U row skip lineStart t →
      entry.source = row := by
  induction t with
  | nil => intro skip lineStart h; simp [factsFrom] at h
  | cons c t ih =>
    intro skip lineStart h
    cases skip with
    | succ skip => exact ih h
    | zero =>
      simp only [factsFrom] at h
      split at h
      · rcases List.mem_cons.mp h with rfl | h
        · rfl
        · exact ih h
      · exact ih h

/-- An entry that is shown is of a passage of the context. -/
theorem source_of_mem_shownEntries {results : List ContextRow}
    (h : entry ∈ shownEntries (detectExplicitConflicts U results)) : entry.source ∈ results := by
  obtain ⟨conflict, hconflict, hentry⟩ := List.mem_flatMap.mp h
  obtain ⟨label, -, hlabel⟩ := List.mem_filterMap.mp hconflict
  simp only at hlabel
  split at hlabel
  · obtain rfl := Option.some.inj hlabel
    obtain ⟨row, hrow, hfact⟩ := List.mem_flatMap.mp
      (List.mem_of_mem_filter (mem_of_mem_firstByArticle hentry))
    rwa [source_of_mem_factsFrom _ hfact]
  · cases hlabel

/-! ### Drafts -/

variable {results : List ContextRow} {language : Language} {d : Draft}

theorem rowById_some {row : ContextRow} (h : rowById results n = some row) :
    row ∈ results ∧ row.source = n :=
  ⟨List.mem_reverse.mp (List.mem_of_find?_eq_some h), by simpa using List.find?_some h⟩

/-- An id is known when some passage has it. -/
theorem rowById_isSome : (∃ row, rowById results n = some row) ↔ n ∈ knownIds results := by
  rw [← Option.isSome_iff_exists, rowById, knownIds]
  simp

/-- The citations of a draft are the known ids it names. -/
theorem mem_citations : n ∈ (d.citations U results).map Citation.source ↔
    n ∈ readIds U d.grounded ∧ n ∈ knownIds results := by
  rw [← rowById_isSome, ← mem_extractCitationIds, Draft.citations, List.map_map, List.mem_map]
  refine ⟨?_, ?_⟩
  · rintro ⟨row, hrow, rfl⟩
    obtain ⟨m, hm, hfound⟩ := List.mem_filterMap.mp hrow
    obtain rfl : row.source = m := (rowById_some hfound).2
    exact ⟨hm, row, hfound⟩
  · rintro ⟨hn, row, hrow⟩
    exact ⟨row, List.mem_filterMap.mpr ⟨n, hn, hrow⟩, (rowById_some hrow).2⟩

/-- A refusal names no passage. -/
theorem readIds_of_isRefusal (h : d.isRefusal U = true) : readIds U d.grounded = [] := by
  simp only [Draft.isRefusal, isGroundingRefusal, Bool.and_eq_true] at h
  obtain ⟨⟨-, hempty⟩, -⟩ := h
  rw [← readIds_strip]
  exact extractCitationIds_eq_nil.mp (List.isEmpty_iff.mp hempty)

theorem isRefusal_of_isOffered (h : d.isOffered U S results = true) : d.isRefusal U = true := by
  simp only [Draft.isOffered, Bool.and_eq_true] at h
  exact h.1.1

theorem of_isUncited (h : d.isUncited U results = true) :
    readIds U d.grounded = [] ∧ d.isRefusal U = false := by
  simp only [Draft.isUncited, Bool.and_eq_true] at h
  obtain ⟨⟨hempty, -⟩, hrefusal⟩ := h
  exact ⟨extractCitationIds_eq_nil.mp (List.isEmpty_iff.mp hempty), by simpa using hrefusal⟩

theorem plain_unverifiableText (language : Language) : Plain (unverifiableText language) := by
  unfold unverifiableText
  split <;>
    · refine Plain.append ?_ ?_ <;>
        · rw [Text.toList_lit rfl]
          decide

theorem plain_blockedText (language : Language) : Plain (blockedText language) := by
  unfold blockedText
  split <;>
    · refine Plain.append ?_ ?_ <;>
        · rw [Text.toList_lit rfl]
          decide

theorem shown_iff : (∀ n, n ∈ rereadIds U (d.shown U S results language) ↔
      n ∈ readIds U d.grounded ∧ n ∈ knownIds results) ↔
    (d.isUncited U results = false → d.isOffered U S results = false →
      ∀ n, n ∈ rereadIds U d.grounded ↔ n ∈ readIds U d.grounded ∧ n ∈ knownIds results) ∧
    (d.isOffered U S results = true →
      rereadIds U (d.grounded ++ results.head?.elim [] (relatedPassage U language)) = []) := by
  rw [Draft.shown]
  cases huncited : d.isUncited U results with
  | true =>
    obtain ⟨hread, hrefusal⟩ := of_isUncited huncited
    have hoffered : d.isOffered U S results = false := by
      rw [← Bool.not_eq_true]
      intro h
      rw [isRefusal_of_isOffered h] at hrefusal
      cases hrefusal
    simp [hread, hoffered, rereadIds_of_plain (plain_unverifiableText language)]
  | false =>
    cases hoffered : d.isOffered U S results with
    | true =>
      simp [readIds_of_isRefusal (isRefusal_of_isOffered hoffered),
        List.eq_nil_iff_forall_not_mem]
    | false => simp

/-- **A draft's markers** are its citations exactly where it is read back as it was written. -/
theorem draft_honest_iff {p : AnswerPayload}
    (hgrounded : p.answerGrounded =
      normalizeAnswerMarkdown U (d.shown U S results language))
    (hextended : p.answerExtended = (answerPayload U S (d.shown U S results language)
      (if d.keepsExtended U S results then d.extended else []) []).answerExtended)
    (hcitations : p.citations = d.citations U results) :
    Honest U results p ↔ ReadBack U S language results d := by
  have hshown : (∀ n, n ∈ extractCitationIds U p.answerGrounded ↔
      n ∈ p.citations.map Citation.source) ↔
        ∀ n, n ∈ rereadIds U (d.shown U S results language) ↔
          n ∈ readIds U d.grounded ∧ n ∈ knownIds results := by
    refine forall_congr' fun n => ?_
    rw [mem_extractCitationIds, hgrounded, readIds_normalizeAnswerMarkdown, hcitations,
      mem_citations]
  have hknown : ∀ c ∈ p.citations, c.source ∈ knownIds results := by
    intro c hc
    rw [hcitations] at hc
    exact (mem_citations.mp (List.mem_map_of_mem (f := Citation.source) hc)).2
  have hmarked : extractCitationIds U p.answerExtended = [] ↔
      (d.keepsExtended U S results = true → S.ragEnableExtendedSection = true →
        leftoverIds U (normalizeAnswerMarkdown U d.extended) = []) := by
    rw [hextended, extractCitationIds_extended]
    cases d.keepsExtended U S results with
    | true => simp
    | false =>
      have hnil : leftoverIds U (normalizeAnswerMarkdown U []) = [] := rfl
      simp [hnil]
  refine ⟨fun h => ?_, fun h => ?_⟩
  · obtain ⟨hread, hoffered⟩ := shown_iff.mp (hshown.mp h.shown)
    exact ⟨hread, hoffered, hmarked.mp h.extended⟩
  · exact ⟨hshown.mpr (shown_iff.mpr ⟨h.grounded, h.offered⟩), hknown, hmarked.mpr h.extended⟩

/-- A blocked answer has neither markers nor citations. -/
theorem blocked_honest : Honest U results (answerPayload U S (blockedText language) [] []) := by
  refine ⟨fun n => ?_, nofun, extractCitationIds_extended_nil _ _⟩
  rw [mem_extractCitationIds, answerPayload, readIds_normalizeAnswerMarkdown,
    rereadIds_of_plain (plain_blockedText language)]
  rfl

/-- An answer of the model is honest if it is blocked or its draft is. -/
theorem model_honest_iff {analytics : List Calculation} {artifacts : List Artifact} {raw : Text} :
    Honest U results (modelPayload U S language results analytics artifacts raw) ↔
      (passesGuardrail U S raw = true →
        ReadBack U S language results (draftOf U results (cleanedSections U S raw))) := by
  simp only [modelPayload, passesGuardrail]
  split
  · next hblocked =>
    have hfail := (Bool.not_eq_true' _).mp hblocked
    simp only [hfail, blocked_honest, Bool.false_eq_true, false_implies]
  · next hpasses =>
    have hpass := by simpa using hpasses
    rw [hpass, draft_honest_iff (d := draftOf U results (cleanedSections U S raw)) (S := S)]
    · exact ⟨fun h _ => h, fun h => h rfl⟩
    · simp only [answerPayload]
    · simp only [answerPayload]
    · simp only [answerPayload]

def plainSettings : Settings where
  ragEnableExtendedSection := true
  ragAllowExtendedOnRefusal := true
  ragLowConfidenceScore := 0

def refusalOutput : Text := "Not found in the knowledge base.".toList

end QnscKb.Ask
