import Mathlib.Tactic.NormNum
import QnscKb.Retrieval.Rerank

/-!
# Retrieval — Forms

The forms a letter is written in, in a question and in a passage: upper and lower case, with its
accent in one character or in several.  `fold_diacritics` takes the accents of composed letters off;
combining marks are not in its table.
-/

namespace QnscKb.Rerank

open Tokens (tokens tokens_append_sep eq_of_tokens)

/-- The other tables of a letter's forms: `str.upper`, the canonical decomposition, and the letters
of the Latin script, the Vietnamese ones among them. -/
structure Scripts extends Letters where
  upper : Char → Text
  normal : Text → Text
  latin : Char → Bool

/-- A text is another form of a letter: canonically equivalent to it, or of another case. -/
inductive Variant (A : Scripts) (c : Char) : Text → Prop
  | canonical {v : Text} (h : A.normal v = A.normal [c]) : Variant A c v
  | cased {v : Text} (h : A.lower v = A.lower [c]) : Variant A c v
  | upper : Variant A c (A.upper c)

/-- A letter that is folded to letters. -/
def FoldsToWord (A : Scripts) (c : Char) : Prop :=
  ∀ d ∈ foldDiacritics A.toLetters [c], A.word d = true

/-- What the tables of Unicode have in common.  `str.lower` reads character by character, the
capital sigma apart; Latin letters fold to letters, but for the capital `I` with a dot. -/
structure Alphabet extends Scripts where
  lower_eq : ∀ t, 'Σ' ∉ t → lower t = t.flatMap fun c => lower [c]
  lower_sigma : lower ['Σ'] ≠ ['Σ']
  lower_stable : ∀ t, ∀ c ∈ lower t, lower [c] = [c]
  lower_ascii : ∀ c : Char, c.toNat < 128 → lower [c] = [c.toLower]
  lower_bar : lower ['Đ'] = ['đ']
  nfd_ascii : ∀ c : Char, c.toNat < 128 → nfd c = [c]
  nfd_parts : ∀ c, ∀ d ∈ nfd c, nfd d = [d]
  nfd_lower : ∀ t, (∀ d ∈ t, nfd d = [d]) → ∀ e ∈ lower t, nfd e = [e]
  nfd_bar : ∀ c, 'đ' ∈ lower ((nfd c).filter fun part => !mark part) → nfd c = [c]
  mark_token : ∀ c, mark c = true → tokenChar toLetters c = false
  mark_lower : ∀ c, mark c = true → lower [c] = [c]
  mark_nfd : ∀ c, mark c = true → ∀ d ∈ nfd c, mark d = true
  mark_bar : mark 'đ' = false
  latin_plain : ∀ c v, latin c = true → Variant toScripts c v → 'Σ' ∉ v
  latin_word : ∀ c, latin c = true → FoldsToWord toScripts c ∨
    ∀ v, Variant toScripts c v → lower v = lower [c]
  latin_normal : ∀ c v, latin c = true → normal v = normal [c] →
    (∃ d ∈ v, mark d = true) ∨ lower v = lower [c]
  latin_upper : ∀ c, latin c = true → lower (upper c) = lower [c] ∨
    foldDiacritics toLetters (upper c) ≠ foldDiacritics toLetters [c]

variable (A : Alphabet)

/-! ### Folding -/

section Folding

variable {A}

variable {t : Text}

theorem lower_append {s : Text} (hs : 'Σ' ∉ s) (ht : 'Σ' ∉ t) :
    A.lower (s ++ t) = A.lower s ++ A.lower t := by
  have hst : 'Σ' ∉ s ++ t := fun h => (List.mem_append.mp h).elim hs ht
  rw [A.lower_eq _ hst, A.lower_eq _ hs, A.lower_eq _ ht, List.flatMap_append]

theorem lower_of_stable (h : ∀ c ∈ t, A.lower [c] = [c]) : A.lower t = t := by
  have hplain : 'Σ' ∉ t := fun hmem => A.lower_sigma (h _ hmem)
  rw [A.lower_eq _ hplain]
  induction t with
  | nil => rfl
  | cons c t ih =>
    obtain ⟨hc, ht⟩ := List.forall_mem_cons.mp h
    rw [List.flatMap_cons, hc, ih ht fun hmem => hplain (List.mem_cons_of_mem c hmem)]
    rfl

theorem foldDiacritics_append {s : Text} (hs : 'Σ' ∉ s) (ht : 'Σ' ∉ t) :
    foldDiacritics A.toLetters (s ++ t) =
      foldDiacritics A.toLetters s ++ foldDiacritics A.toLetters t := by
  rw [foldDiacritics, lower_append hs ht, List.flatMap_append]
  rfl

variable {c : Char}

theorem foldChar_of_nfd (hnfd : A.nfd c = [c]) (hbar : c ≠ 'đ' ∧ c ≠ 'Đ') :
    foldChar A.toLetters c = [c] := by
  have hentry : strippedEntry A.toLetters c = none := by
    rw [strippedEntry, hnfd]
    cases hmark : A.mark c <;> simp [hmark]
  rw [foldChar, hentry, Option.getD_none, if_neg (by simp [hbar])]

theorem foldChar_ascii (h : c.toNat < 128) : foldChar A.toLetters c = [c] := by
  refine foldChar_of_nfd (A.nfd_ascii c h) ?_
  constructor
  · rintro rfl
    exact absurd h (by decide)
  · rintro rfl
    exact absurd h (by decide)

theorem foldChar_settled {d : Char} (hc : A.lower [c] = [c]) (h : d ∈ foldChar A.toLetters c) :
    A.lower [d] = [d] ∧ foldChar A.toLetters d = [d] := by
  rw [foldChar] at h
  cases hentry : strippedEntry A.toLetters c with
  | some stripped =>
    rw [hentry] at h
    rw [strippedEntry] at hentry
    split_ifs at hentry with hcut
    obtain rfl := Option.some.inj hentry
    have hstable := A.lower_stable _ d h
    refine ⟨hstable, foldChar_of_nfd ?_ ⟨?_, ?_⟩⟩
    · refine A.nfd_lower _ (fun e he => ?_) d h
      exact A.nfd_parts c e (List.mem_filter.mp he).1
    -- the barred letter is part of no decomposition but its own
    · rintro rfl
      have hself := A.nfd_bar c h
      rw [hself] at hcut
      cases hmark : A.mark c <;> simp [hmark] at hcut
    · rintro rfl
      rw [A.lower_bar] at hstable
      exact absurd hstable (by decide)
  | none =>
    rw [hentry] at h
    split_ifs at h with hbar
    · obtain rfl := List.mem_singleton.mp h
      exact ⟨A.lower_ascii _ (by decide), foldChar_ascii (by decide)⟩
    · obtain rfl := List.mem_singleton.mp h
      refine ⟨hc, ?_⟩
      rw [foldChar, hentry, Option.getD_none, if_neg hbar]

theorem flatMap_of_settled {f : Char → Text} (h : ∀ c ∈ t, f c = [c]) : t.flatMap f = t := by
  induction t with
  | nil => rfl
  | cons c t ih =>
    obtain ⟨hc, ht⟩ := List.forall_mem_cons.mp h
    rw [List.flatMap_cons, hc, ih ht]
    rfl

/-- **Folding twice is folding once.** -/
theorem foldDiacritics_idem (t : Text) :
    foldDiacritics A.toLetters (foldDiacritics A.toLetters t) = foldDiacritics A.toLetters t := by
  have hsettled : ∀ d ∈ foldDiacritics A.toLetters t,
      A.lower [d] = [d] ∧ foldChar A.toLetters d = [d] := by
    intro d hd
    obtain ⟨c, hc, hdc⟩ := List.mem_flatMap.mp hd
    exact foldChar_settled (A.lower_stable t c hc) hdc
  rw [foldDiacritics, lower_of_stable fun d hd => (hsettled d hd).1]
  exact flatMap_of_settled fun d hd => (hsettled d hd).2

theorem foldDiacritics_mark (h : A.mark c = true) : foldChar A.toLetters c = [c] := by
  have hentry : strippedEntry A.toLetters c = none := by
    have hnone : ((A.nfd c).filter fun part => !A.mark part) = [] := by
      rw [List.filter_eq_nil_iff]
      intro d hd
      simp [A.mark_nfd c h d hd]
    rw [strippedEntry, hnone]
    simp
  have hbar : ¬(c = 'đ' ∨ c = 'Đ') := by
    rintro (rfl | rfl)
    · exact absurd (A.mark_bar.symm.trans h) Bool.false_ne_true
    · have hstays := A.mark_lower _ h
      rw [A.lower_bar] at hstays
      exact absurd hstays (by decide)
  rw [foldChar, hentry, Option.getD_none, if_neg hbar]

theorem foldDiacritics_space (s t : Text) :
    foldDiacritics A.toLetters (s ++ ' ' :: t) =
      foldDiacritics A.toLetters s ++ ' ' :: foldDiacritics A.toLetters t := by
  have hblank : foldChar A.toLetters ' ' = [' '] := foldChar_ascii (by decide)
  rw [foldDiacritics, A.lower_append_space, List.flatMap_append]
  rfl

theorem joined_eq (text title section_ : Text) :
    joined text title section_ = text ++ ' ' :: (title ++ ' ' :: section_) := by
  simp [joined, Text.join]

theorem foldDiacritics_joined (text title section_ : Text) :
    foldDiacritics A.toLetters (joined text title section_) =
      joined (foldDiacritics A.toLetters text) (foldDiacritics A.toLetters title)
        (foldDiacritics A.toLetters section_) := by
  rw [joined_eq, joined_eq, foldDiacritics_space, foldDiacritics_space]

theorem scorePreparedText_congr {text text' : Text}
    (h : foldDiacritics A.toLetters text = foldDiacritics A.toLetters text')
    (prepared : PreparedQuery) (title section_ : Text) :
    scorePreparedText A.toLetters prepared text title section_ =
      scorePreparedText A.toLetters prepared text' title section_ := by
  rw [scorePreparedText, scorePreparedText, foldDiacritics_joined, foldDiacritics_joined, h]

/-- **A passage scores as its folded form.** -/
theorem scorePreparedText_folded (prepared : PreparedQuery) (text title section_ : Text) :
    scorePreparedText A.toLetters prepared (foldDiacritics A.toLetters text) title section_ =
      scorePreparedText A.toLetters prepared text title section_ :=
  scorePreparedText_congr (foldDiacritics_idem text) prepared title section_

end Folding

/-! ### One term -/

section Probe

variable {A}

def probe (word : Text) : PreparedQuery where
  normalized := []
  terms := {word}
  isDefinition := false
  identifierWeights := []
  vectorRanks _ := none

theorem tokens_joined (text : Text) :
    tokens (tokenChar A.toLetters) (joined text [] []) = tokens (tokenChar A.toLetters) text := by
  have hblank : tokenChar A.toLetters ' ' = false := by
    rw [tokenChar, A.word_space]
    rfl
  rw [joined_eq, tokens_append_sep hblank, List.nil_append]
  have hrest := tokens_append_sep hblank [] []
  rw [List.nil_append] at hrest
  rw [hrest]
  simp [tokens, Tokens.tokensFrom, Tokens.finished]

theorem foldDiacritics_nil : foldDiacritics A.toLetters [] = [] := by
  have hempty : A.lower [] = [] := lower_of_stable fun c hc => absurd hc List.not_mem_nil
  rw [foldDiacritics, hempty]
  rfl

theorem coverage_probe (word : Text) (held : List Text) :
    coverage (probe word) ((probe word).terms ∩ held.toFinset) = if word ∈ held then 1 else 0 := by
  have hweights : (probe word).identifierWeights = [] := rfl
  have hterms : (probe word).terms = {word} := rfl
  rw [coverage, if_pos hweights, hterms]
  split
  · next hmem =>
    rw [Finset.singleton_inter_of_mem (List.mem_toFinset.mpr hmem)]
    simp
  · next hnot =>
    rw [Finset.singleton_inter_of_notMem (mt List.mem_toFinset.mp hnot)]
    simp

theorem scorePreparedText_probe (word text : Text) :
    ∃ references : Bool, scorePreparedText A.toLetters (probe word) text [] [] =
      (if word ∈ tokens (tokenChar A.toLetters) (foldDiacritics A.toLetters text) then 1 else 0) -
        if references then 1 / 4 else 0 := by
  refine ⟨refers A.toLetters (foldDiacritics A.toLetters (joined text [] [])), ?_⟩
  have hquotes : ∀ passage, quotes A.toLetters (probe word).normalized passage = false :=
    fun passage => rfl
  have hkind : (probe word).isDefinition = false := rfl
  rw [scorePreparedText, coverage_probe, bonus, hquotes, if_neg Bool.false_ne_true, zero_add,
    kindBonus, hkind, if_neg Bool.false_ne_true, ← sub_eq_add_neg, foldDiacritics_joined,
    foldDiacritics_nil, tokens_joined]

/-- The score of one term tells whether the passage holds it: no marker of references outweighs
it. -/
theorem mem_of_probe {text text' word : Text}
    (h : scorePreparedText A.toLetters (probe word) text [] [] =
      scorePreparedText A.toLetters (probe word) text' [] [])
    (hword : word ∈ tokens (tokenChar A.toLetters) (foldDiacritics A.toLetters text)) :
    word ∈ tokens (tokenChar A.toLetters) (foldDiacritics A.toLetters text') := by
  by_contra hnot
  obtain ⟨r, hr⟩ := scorePreparedText_probe (A := A) word text
  obtain ⟨r', hr'⟩ := scorePreparedText_probe (A := A) word text'
  rw [hr, hr', if_pos hword, if_neg hnot] at h
  -- a term is worth one, a marker of references a quarter
  cases r <;> cases r' <;> norm_num at h

theorem foldDiacritics_lower {c : Char} (hascii : c.toNat < 128) (hlower : c.toLower = c) :
    foldDiacritics A.toLetters [c] = [c] := by
  rw [foldDiacritics, A.lower_ascii c hascii, hlower, List.flatMap_singleton, foldChar_ascii hascii]

theorem foldDiacritics_between {x y : Char} {v : Text} (hx : foldDiacritics A.toLetters [x] = [x])
    (hy : foldDiacritics A.toLetters [y] = [y]) (hplain : 'Σ' ∉ [x] ∧ 'Σ' ∉ v ∧ 'Σ' ∉ [y]) :
    foldDiacritics A.toLetters ([x] ++ (v ++ [y])) =
      x :: (foldDiacritics A.toLetters v ++ [y]) := by
  obtain ⟨hplainx, hplainv, hplainy⟩ := hplain
  have hrest : 'Σ' ∉ v ++ [y] := fun h => (List.mem_append.mp h).elim hplainv hplainy
  rw [foldDiacritics_append hplainx hrest, foldDiacritics_append hplainv hplainy, hx, hy]
  rfl

/-- **Forms that score alike wherever they stand fold alike**, where one folds to letters. -/
theorem foldDiacritics_eq_of_scores {v u : Text} (hv : 'Σ' ∉ v) (hu : 'Σ' ∉ u)
    (hword : ∀ d ∈ foldDiacritics A.toLetters u, tokenChar A.toLetters d = true)
    (h : ∀ prepared s t, 'Σ' ∉ s → 'Σ' ∉ t →
      scorePreparedText A.toLetters prepared (s ++ (v ++ t)) [] [] =
        scorePreparedText A.toLetters prepared (s ++ (u ++ t)) [] []) :
    foldDiacritics A.toLetters v = foldDiacritics A.toLetters u := by
  have hletter : ∀ c ∈ ['x', 'y', 'z'], foldDiacritics A.toLetters [c] = [c] ∧
      tokenChar A.toLetters c = true ∧ 'Σ' ∉ [c] := by
    intro c hc
    have hdecide : c.toNat < 128 ∧ c.toLower = c ∧ c.isAlphanum = true ∧ 'Σ' ∉ [c] := by
      simp only [List.mem_cons, List.not_mem_nil, or_false] at hc
      rcases hc with rfl | rfl | rfl <;> decide
    refine ⟨foldDiacritics_lower hdecide.1 hdecide.2.1, ?_, hdecide.2.2.2⟩
    rw [tokenChar, A.word_of_isAlphanum c hdecide.2.2.1]
    rfl
  obtain ⟨hfoldx, hx, hplainx⟩ := hletter 'x' (by decide)
  obtain ⟨-, hy, -⟩ := hletter 'y' (by decide)
  obtain ⟨-, hz, -⟩ := hletter 'z' (by decide)
  refine eq_of_tokens hx hy hz (by decide) hword fun last hlast word hmem => ?_
  obtain ⟨hfold, -, hplain⟩ := hletter last (List.mem_cons_of_mem _ hlast)
  rw [← foldDiacritics_between hfoldx hfold ⟨hplainx, hv, hplain⟩] at hmem
  rw [← foldDiacritics_between hfoldx hfold ⟨hplainx, hu, hplain⟩]
  exact mem_of_probe (h (probe word) ['x'] [last] hplainx hplain) hmem

end Probe

/-! ### Forms of a letter -/

/-- A form of a letter makes no difference in a question or a passage, nor does folding a passage,
or folding it again. -/
structure Ignored (A : Alphabet) (c : Char) (v : Text) : Prop where
  query : ∀ s t, 'Σ' ∉ s → 'Σ' ∉ t →
    normalizeQuery A.toLetters (s ++ (v ++ t)) = normalizeQuery A.toLetters (s ++ c :: t)
  passage : ∀ prepared s t title section_, 'Σ' ∉ s → 'Σ' ∉ t →
    scorePreparedText A.toLetters prepared (s ++ (v ++ t)) title section_ =
      scorePreparedText A.toLetters prepared (s ++ c :: t) title section_
  image : ∀ prepared text title section_,
    scorePreparedText A.toLetters prepared (foldDiacritics A.toLetters text) title section_ =
      scorePreparedText A.toLetters prepared text title section_
  idempotent : ∀ t, foldDiacritics A.toLetters (foldDiacritics A.toLetters t) =
    foldDiacritics A.toLetters t

variable {A} {c : Char} {v : Text}

variable {d c : Char}

theorem mem_foldDiacritics_mark (hv : 'Σ' ∉ v) (hd : d ∈ v) (hmark : A.mark d = true) :
    d ∈ foldDiacritics A.toLetters v := by
  rw [foldDiacritics, A.lower_eq v hv, List.mem_flatMap]
  refine ⟨d, List.mem_flatMap.mpr ⟨d, hd, ?_⟩, ?_⟩
  · rw [A.mark_lower d hmark]
    exact List.mem_cons_self
  · rw [foldDiacritics_mark hmark]
    exact List.mem_cons_self

theorem lower_of_foldDiacritics (hc : A.latin c = true) (hv : Variant A.toScripts c v)
    (hword : FoldsToWord A.toScripts c)
    (hfold : foldDiacritics A.toLetters v = foldDiacritics A.toLetters [c]) :
    A.lower v = A.lower [c] := by
  have hplain := A.latin_plain c v hc hv
  cases hv with
  | canonical hnormal =>
    rcases A.latin_normal c v hc hnormal with ⟨d, hd, hmark⟩ | hlower
    -- a mark would be among the letters of the fold
    · have hmem := mem_foldDiacritics_mark hplain hd hmark
      rw [hfold] at hmem
      have htoken : tokenChar A.toLetters d = true := by
        rw [tokenChar, hword d hmem]
        rfl
      exact absurd ((A.mark_token d hmark).symm.trans htoken) Bool.false_ne_true
    · exact hlower
  | cased hlower => exact hlower
  | upper => exact (A.latin_upper c hc).resolve_right fun hne => hne hfold

variable {t : Text}

theorem lower_between (hc : A.latin c = true) (hv : Variant A.toScripts c v)
    (hlower : A.lower v = A.lower [c]) {s : Text} (hs : 'Σ' ∉ s) (ht : 'Σ' ∉ t) :
    A.lower (s ++ (v ++ t)) = A.lower (s ++ c :: t) := by
  have hplain := A.latin_plain c v hc hv
  have hletter : 'Σ' ∉ [c] := A.latin_plain c [c] hc (.cased rfl)
  have hforms : ∀ u, 'Σ' ∉ u → A.lower (s ++ (u ++ t)) = A.lower s ++ (A.lower u ++ A.lower t) := by
    intro u hu
    have hrest : 'Σ' ∉ u ++ t := fun h => (List.mem_append.mp h).elim hu ht
    rw [lower_append hs hrest, lower_append hu ht]
  have hcons : c :: t = [c] ++ t := rfl
  rw [hcons, hforms v hplain, hforms [c] hletter, hlower]

/-- **A form of a letter is ignored** exactly when `str.lower` takes it for the letter. -/
theorem ignored_iff (A : Alphabet) {c : Char} {v : Text} (hc : A.latin c = true)
    (hv : Variant A.toScripts c v) : Ignored A c v ↔ A.lower v = A.lower [c] := by
  constructor
  · intro h
    rcases A.latin_word c hc with hword | hall
    -- a passage with the form between two letters, asked for the word it should be
    · refine lower_of_foldDiacritics hc hv hword ?_
      refine foldDiacritics_eq_of_scores (A.latin_plain c v hc hv)
        (A.latin_plain c [c] hc (.cased rfl)) (fun d hd => ?_) fun prepared s t hs ht => ?_
      · rw [tokenChar, hword d hd]
        rfl
      · exact h.passage prepared s t [] [] hs ht
    · exact hall v hv
  · intro hlower
    have hbetween : ∀ s t, 'Σ' ∉ s → 'Σ' ∉ t →
        A.lower (s ++ (v ++ t)) = A.lower (s ++ c :: t) :=
      fun s t hs ht => lower_between hc hv hlower hs ht
    refine ⟨fun s t hs ht => ?_, fun prepared s t title section_ hs ht => ?_,
      scorePreparedText_folded, foldDiacritics_idem⟩
    · rw [normalizeQuery, signals, hbetween s t hs ht, normalizeQuery, signals]
    · refine scorePreparedText_congr ?_ prepared title section_
      rw [foldDiacritics, hbetween s t hs ht, foldDiacritics]

/-- A text with letters of it in another form, each of which `str.lower` takes for the letter. -/
inductive Rewritten (A : Alphabet) : Text → Text → Prop
  | nil : Rewritten A [] []
  | same {c : Char} {t t' : Text} (hc : c ≠ 'Σ') (h : Rewritten A t t') :
      Rewritten A (c :: t) (c :: t')
  | form {c : Char} {v t t' : Text} (hc : A.latin c = true) (hv : Variant A.toScripts c v)
      (hlower : A.lower v = A.lower [c]) (h : Rewritten A t t') : Rewritten A (c :: t) (v ++ t')

theorem Rewritten.lower {t' : Text} (h : Rewritten A t t') :
    'Σ' ∉ t ∧ 'Σ' ∉ t' ∧ A.lower t' = A.lower t := by
  induction h with
  | nil => exact ⟨nofun, nofun, rfl⟩
  | @same c t t' hc h ih =>
    obtain ⟨ht, ht', hsame⟩ := ih
    have hletter : 'Σ' ∉ [c] := by simpa using hc.symm
    refine ⟨by simp [hc.symm, ht], by simp [hc.symm, ht'], ?_⟩
    rw [← List.singleton_append, lower_append hletter ht', hsame, ← lower_append hletter ht]
    rfl
  | @form c v t t' hc hv hlower h ih =>
    obtain ⟨ht, ht', hsame⟩ := ih
    have hplain := A.latin_plain c v hc hv
    have hletter : 'Σ' ∉ [c] := A.latin_plain c [c] hc (.cased rfl)
    refine ⟨?_, ?_, ?_⟩
    · exact fun hmem => (List.mem_append.mp hmem).elim hletter ht
    · exact fun hmem => (List.mem_append.mp hmem).elim hplain ht'
    · rw [lower_append hplain ht', hlower, hsame, ← lower_append hletter ht]
      rfl

/-- **Any number of letters** may be written otherwise, in a question and in a passage. -/
theorem Rewritten.ignored {t' : Text} (h : Rewritten A t t') :
    normalizeQuery A.toLetters t' = normalizeQuery A.toLetters t ∧
      ∀ prepared title section_, scorePreparedText A.toLetters prepared t' title section_ =
        scorePreparedText A.toLetters prepared t title section_ := by
  obtain ⟨-, -, hlower⟩ := h.lower
  refine ⟨by rw [normalizeQuery, signals, hlower, normalizeQuery, signals], ?_⟩
  exact fun prepared title section_ =>
    scorePreparedText_congr (by rw [foldDiacritics, hlower, foldDiacritics]) prepared title section_

/-! ### Where they make one -/

/-- The small letters `str.lower` makes of capital ones, in the tables below. -/
def smallLetters : Text := "abcdefghijklmnopqrstuvwxyz".toList ++ ['đ', 'σ']

/-- `str.lower` on ASCII, a barred letter and the sigma. -/
def smallLetter (c : Char) : Char :=
  if c = 'Đ' then 'đ' else if c = 'Σ' then 'σ' else c.toLower

def marks : Text := [Char.ofNat 0x0302, Char.ofNat 0x0309]

def parts (c : Char) : Text := if c = 'ổ' then 'o' :: marks else [c]

theorem of_all {p : Char → Prop} [DecidablePred p] (h : (t.all fun c => decide (p c)) = true)
    (hc : c ∈ t) : p c :=
  of_decide_eq_true (List.all_eq_true.mp h c hc)

theorem toLower_cases (c : Char) : c.toLower = c ∨ c.toLower ∈ smallLetters := by
  by_cases h : c.val ≥ 'A'.val ∧ c.val ≤ 'Z'.val
  · right
    have hbounds : 65 ≤ c.toNat ∧ c.toNat < 91 := ⟨h.1, Nat.lt_succ_of_le h.2⟩
    have hall : ∀ n < 91, 65 ≤ n → (Char.ofNat n).toLower ∈ smallLetters := by decide +kernel
    have hc := hall c.toNat hbounds.2 hbounds.1
    rwa [Char.ofNat_toNat] at hc
  · exact Or.inl (dif_neg h)

theorem smallLetter_cases (c : Char) : smallLetter c = c ∨ smallLetter c ∈ smallLetters := by
  rw [smallLetter]
  split_ifs
  · exact Or.inr (by decide +kernel)
  · exact Or.inr (by decide +kernel)
  · exact toLower_cases c

theorem smallLetter_settled (c : Char) : smallLetter (smallLetter c) = smallLetter c ∧
    (parts c = [c] → parts (smallLetter c) = [smallLetter c]) := by
  have hsmall : (smallLetters.all fun d => decide (smallLetter d = d ∧ parts d = [d])) = true := by
    decide +kernel
  rcases smallLetter_cases c with hstays | hmem
  · rw [hstays]
    exact ⟨hstays, id⟩
  · obtain ⟨hsettled, hparts⟩ := of_all hsmall hmem
    exact ⟨hsettled, fun _ => hparts⟩

theorem parts_ne_nil (c : Char) : parts c ≠ [] := by
  rw [parts]
  split_ifs <;> exact List.cons_ne_nil _ _

theorem flatMap_parts_eq_nil (h : t.flatMap parts = []) : t = [] := by
  cases t with
  | nil => rfl
  | cons c t =>
    rw [List.flatMap_cons, List.append_eq_nil_iff] at h
    exact absurd h.1 (parts_ne_nil c)

/-- The tables of two letters, one with an accent and a tone, one whose capitals are two. -/
def twoLetters : Scripts where
  word c := c.isAlphanum || ['_', 'ß', 'ổ', 'đ'].contains c
  digit := Ask.ascii.digit
  fold := Ask.ascii.fold
  word_of_isAlphanum c h := by simp [h]
  digit_of_isDigit := Ask.ascii.digit_of_isDigit
  digit_le := Ask.ascii.digit_le
  digit_visible := Ask.ascii.digit_visible
  lower t := t.map smallLetter
  nfd := parts
  mark c := marks.contains c
  lower_append_space s t := by rw [List.map_append, List.map_cons]; rfl
  word_space := by decide
  upper c := if c = 'ß' then ['S', 'S'] else [c]
  normal t := t.flatMap parts
  latin c := c == 'ổ' || c == 'ß'

theorem latin_cases (h : twoLetters.latin c = true) : c = 'ổ' ∨ c = 'ß' := by
  simpa [twoLetters] using h

theorem mark_cases (h : twoLetters.mark c = true) : c ∈ marks :=
  List.contains_iff_mem.mp h

theorem plain_twoLetters {v : Text} (hc : twoLetters.latin c = true) (hv : Variant twoLetters c v) :
    'Σ' ∉ v := by
  intro hmem
  cases hv with
  | canonical hnormal =>
    have hin : 'Σ' ∈ v.flatMap parts := List.mem_flatMap.mpr ⟨'Σ', hmem, by decide⟩
    have hsame : v.flatMap parts = [c].flatMap parts := hnormal
    rw [hsame] at hin
    rcases latin_cases hc with rfl | rfl <;> exact absurd hin (by decide +kernel)
  | cased hlower =>
    have hin : 'σ' ∈ v.map smallLetter := List.mem_map.mpr ⟨'Σ', hmem, by decide⟩
    have hsame : v.map smallLetter = [c].map smallLetter := hlower
    rw [hsame] at hin
    rcases latin_cases hc with rfl | rfl <;> exact absurd hin (by decide +kernel)
  | upper => rcases latin_cases hc with rfl | rfl <;> exact absurd hmem (by decide +kernel)

theorem flatMap_parts_cons {rest : Text} (h : (c :: t).flatMap parts = d :: rest) :
    c = 'ổ' ∧ d = 'o' ∨ c = d ∧ t.flatMap parts = rest := by
  rw [List.flatMap_cons] at h
  by_cases hc : c = 'ổ'
  · subst hc
    exact Or.inl ⟨rfl, (List.cons.inj h).1.symm⟩
  · have hparts : parts c = [c] := if_neg hc
    rw [hparts] at h
    exact Or.inr (List.cons.inj h)

theorem normal_twoLetters {v : Text} (hc : twoLetters.latin c = true)
    (h : v.flatMap parts = [c].flatMap parts) : (∃ d ∈ v, twoLetters.mark d = true) ∨ v = [c] := by
  rcases latin_cases hc with rfl | rfl
  · have hletter : v.flatMap parts = 'o' :: marks := h
    cases v with
    | nil => exact absurd hletter.symm (List.cons_ne_nil _ _)
    | cons d w =>
      rcases flatMap_parts_cons hletter with ⟨rfl, -⟩ | ⟨rfl, hrest⟩
      · have hcut : 'o' :: marks ++ w.flatMap parts = 'o' :: marks ++ [] := hletter
        rw [flatMap_parts_eq_nil (List.append_cancel_left hcut)]
        exact Or.inr rfl
      -- the base letter alone: the first mark comes next
      · cases w with
        | nil => exact absurd hrest.symm (List.cons_ne_nil _ _)
        | cons e w =>
          rcases flatMap_parts_cons hrest with ⟨-, hbase⟩ | ⟨rfl, -⟩
          · exact absurd hbase (by decide)
          · exact Or.inl ⟨_, List.mem_cons_of_mem _ List.mem_cons_self, by decide⟩
  · have hletter : v.flatMap parts = ['ß'] := h
    cases v with
    | nil => exact absurd hletter.symm (List.cons_ne_nil _ _)
    | cons d w =>
      rcases flatMap_parts_cons hletter with ⟨-, hbase⟩ | ⟨rfl, hrest⟩
      · exact absurd hbase (by decide)
      · rw [flatMap_parts_eq_nil hrest]
        exact Or.inr rfl

theorem notMem_of_ascii (hc : c.toNat < 128) (hd : ¬d.toNat < 128) : c ≠ d := by
  rintro rfl
  exact hd hc

/-- The tables have what those of Unicode have in common. -/
def twoLettersAlphabet : Alphabet where
  toScripts := twoLetters
  lower_eq t _ := List.map_eq_flatMap
  lower_sigma := by decide
  lower_stable t c hc := by
    obtain ⟨d, -, rfl⟩ := List.mem_map.mp hc
    exact congrArg (fun e => [e]) (smallLetter_settled d).1
  lower_ascii c hc := by
    have hletters : c ≠ 'Đ' ∧ c ≠ 'Σ' :=
      ⟨notMem_of_ascii hc (by decide), notMem_of_ascii hc (by decide)⟩
    have hsmall : smallLetter c = c.toLower := by
      rw [smallLetter, if_neg hletters.1, if_neg hletters.2]
    exact congrArg (fun e => [e]) hsmall
  lower_bar := by decide
  nfd_ascii c hc := if_neg (notMem_of_ascii hc (by decide))
  nfd_parts c d hd := by
    have hmem : d ∈ parts c := hd
    rw [parts] at hmem
    split_ifs at hmem with hc
    · exact of_all (p := fun e => parts e = [e]) (by decide +kernel) hmem
    · rw [List.mem_singleton.mp hmem]
      exact if_neg hc
  nfd_lower t ht e he := by
    obtain ⟨d, hd, rfl⟩ := List.mem_map.mp he
    exact (smallLetter_settled d).2 (ht d hd)
  nfd_bar c hbar := by
    by_cases hc : c = 'ổ'
    · subst hc
      exact absurd hbar (by decide +kernel)
    · exact if_neg hc
  mark_token c hc := of_all (p := fun d => tokenChar twoLetters.toLetters d = false)
    (by decide +kernel) (mark_cases hc)
  mark_lower c hc := of_all (p := fun d => twoLetters.lower [d] = [d]) (by decide +kernel)
    (mark_cases hc)
  mark_nfd c hc := by
    have hall : (parts c).all twoLetters.mark = true :=
      of_all (p := fun d => (parts d).all twoLetters.mark = true) (by decide +kernel)
        (mark_cases hc)
    exact List.all_eq_true.mp hall
  mark_bar := by decide
  latin_plain c v hc hv := plain_twoLetters hc hv
  latin_word c hc := by
    left
    have hall : (foldDiacritics twoLetters.toLetters [c]).all twoLetters.word = true := by
      rcases latin_cases hc with rfl | rfl <;> decide +kernel
    exact List.all_eq_true.mp hall
  latin_normal c v hc h := by
    refine (normal_twoLetters hc h).imp_right fun hv => ?_
    rw [hv]
  latin_upper c hc := by
    rcases latin_cases hc with rfl | rfl
    · exact Or.inl rfl
    · exact Or.inr (by decide +kernel)

def apart : Text := 'o' :: marks

theorem ignored_iff_apart :
    Ignored twoLettersAlphabet 'ổ' apart ↔
      twoLettersAlphabet.lower apart = twoLettersAlphabet.lower ['ổ'] :=
  ignored_iff twoLettersAlphabet (by decide) (.canonical (by decide))

/-- A word whose letter is written with combining marks is dropped as a stopword, where in one
character it is the question's subject; and the two capitals of a small letter do not match it. -/
theorem apart_dropped :
    (Variant twoLetters 'ổ' apart ∧ ¬ Ignored twoLettersAlphabet 'ổ' apart) ∧
      Variant twoLetters 'ß' ['S', 'S'] ∧ ¬ Ignored twoLettersAlphabet 'ß' ['S', 'S'] := by
  refine ⟨⟨.canonical (by decide), fun h => ?_⟩, Variant.upper, fun h => ?_⟩
  · exact absurd (h.query ['t'] [] (by decide) (by decide)) (by decide +kernel)
  · exact absurd (h.query "stra".toList ['e'] (by decide +kernel) (by decide)) (by decide +kernel)

end QnscKb.Rerank
