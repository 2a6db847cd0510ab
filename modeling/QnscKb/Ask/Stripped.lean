import QnscKb.Ask.Markers

/-!
# Ask — Stripped

What is read of an answer once `strip_unknown_markers` has taken its unknown markers out
(`src/rag/citations.py`).  Taking a run out closes what stood around it, folding blanks shortens a
run or joins the words of a legacy marker, and a group that keeps some markers can outgrow the
length of a run.
-/

namespace QnscKb.Ask

open Brackets (runs replace hollows Plain Rewrites StandsFor)

/-- Of ASCII, only letters, digits and `_` are word characters, and only letters have a case. -/
structure Tables extends Unicode where
  word_ascii : ∀ c, c.toNat < 128 → word c = true → c.isAlphanum = true ∨ c = '_'
  fold_ascii : ∀ c, c.toNat < 128 → c.isAlpha = false → fold c = c

variable {U : Unicode}

/-! ### The folds of blanks -/

/-- The characters `strip_unknown_markers` moves up to the word before them. -/
def marks : List Char := ['.', ',', ';', ':', '!', '?']

def foldBlanks (t : Text) : Text := closePunctuation (collapseBlanks t)

variable {c : Char}

theorem collapseFrom_append (hc : isBlank c = false) (t a blanks : Text) :
    collapseFrom blanks (a ++ c :: t) = collapseFrom blanks a ++ c :: collapseBlanks t := by
  induction a generalizing blanks with
  | nil => simp [collapseFrom, hc, collapseBlanks]
  | cons d a ih =>
    by_cases hd : isBlank d = true
    · simp [collapseFrom, hd, ih]
    · simp [collapseFrom, hd, ih]

theorem closeFrom_append (hc : isBlank c = false) (hmark : c ∉ marks) (t a blanks : Text) :
    closeFrom blanks (a ++ c :: t) = closeFrom blanks a ++ c :: closePunctuation t := by
  induction a generalizing blanks with
  | nil =>
    have hnot : c ∉ ['.', ',', ';', ':', '!', '?'] := hmark
    simp only [List.nil_append, closeFrom, hc, Bool.false_eq_true, if_false, if_neg hnot,
      closePunctuation]
  | cons d a ih =>
    by_cases hd : isBlank d = true
    · simp [closeFrom, hd, ih]
    · simp [closeFrom, hd, ih]

/-- The folds of blanks work between visible characters. -/
theorem foldBlanks_append (hc : isBlank c = false) (hmark : c ∉ marks) (a t : Text) :
    foldBlanks (a ++ c :: t) = foldBlanks a ++ c :: foldBlanks t := by
  rw [foldBlanks, collapseBlanks, collapseFrom_append hc, closePunctuation,
    closeFrom_append hc hmark]
  rfl

theorem foldBlanks_cons (hc : isBlank c = false) (t : Text) :
    foldBlanks (c :: t) = c :: foldBlanks t := by
  have hcollapse : collapseBlanks (c :: t) = c :: collapseBlanks t :=
    collapseFrom_append hc t [] []
  rw [foldBlanks, hcollapse, closePunctuation, closeFrom, hc, ite_self]
  rfl

theorem foldBlanks_visible {a : Text} (ha : ∀ c ∈ a, isBlank c = false) (t : Text) :
    foldBlanks (a ++ t) = a ++ foldBlanks t := by
  induction a with
  | nil => rfl
  | cons c a ih =>
    obtain ⟨hc, ha⟩ := List.forall_mem_cons.mp ha
    rw [List.cons_append, foldBlanks_cons hc, ih ha, List.cons_append]

theorem foldBlanks_blank (hc : isBlank c = false) (hmark : c ∉ marks) (t : Text) :
    foldBlanks (' ' :: c :: t) = ' ' :: foldBlanks (c :: t) := by
  rw [foldBlanks_cons hc]
  exact foldBlanks_append hc hmark [' '] t

variable {blanks t gap digits : Text}

theorem mem_collapseFrom (h : c ∈ collapseFrom blanks t) : c ∈ blanks ++ t ∨ c = ' ' := by
  have hfold : ∀ b : Text, c ∈ (if 2 ≤ b.length then [' '] else b) → c ∈ b ∨ c = ' ' := by
    intro b hmem
    split at hmem
    · exact .inr (List.mem_singleton.mp hmem)
    · exact .inl hmem
  induction t generalizing blanks with
  | nil => simpa using hfold blanks h
  | cons d t ih =>
    rw [collapseFrom] at h
    split at h
    · exact (ih h).imp_left fun hmem => by simpa using hmem
    · rcases List.mem_append.mp h with hmem | hmem
      · exact (hfold blanks hmem).imp_left (List.mem_append_left _)
      · rcases List.mem_cons.mp hmem with rfl | hmem
        · exact .inl (by simp)
        · refine (ih hmem).imp_left fun hmem => ?_
          exact List.mem_append_right _ (List.mem_cons_of_mem d hmem)

theorem mem_closeFrom (h : c ∈ closeFrom blanks t) : c ∈ blanks ++ t := by
  induction t generalizing blanks with
  | nil => simpa [closeFrom] using h
  | cons d t ih =>
    rw [closeFrom] at h
    split at h
    · simpa using ih h
    · rcases List.mem_append.mp h with hmem | hmem
      · split at hmem
        · cases hmem
        · exact List.mem_append_left _ hmem
      · rcases List.mem_cons.mp hmem with rfl | hmem
        · simp
        · exact List.mem_append_right _ (List.mem_cons_of_mem d (ih hmem))

theorem mem_foldBlanks (h : c ∈ foldBlanks t) : c ∈ t ∨ c = ' ' :=
  mem_collapseFrom (mem_closeFrom h)

theorem Plain.foldBlanks (h : Plain t) : Plain (foldBlanks t) := by
  intro c hc
  rcases mem_foldBlanks hc with hmem | rfl
  · exact h c hmem
  · decide

theorem runs_foldBlanks (t : Text) : runs (foldBlanks t) = (runs t).map foldBlanks :=
  Brackets.runs_edit (fun _ => Plain.foldBlanks)
    (fun a t => foldBlanks_append (by decide) (by decide) a t)
    (fun a t => foldBlanks_append (by decide) (by decide) a t) t

theorem length_pass_le {pass : Text → Text → Text}
    (hend : ∀ blanks, (pass blanks []).length ≤ blanks.length)
    (hstep : ∀ blanks c t, pass blanks (c :: t) = pass (blanks ++ [c]) t ∨
      ∃ out : Text, out.length ≤ blanks.length ∧ pass blanks (c :: t) = out ++ c :: pass [] t)
    (blanks t : Text) : (pass blanks t).length ≤ blanks.length + t.length := by
  induction t generalizing blanks with
  | nil => exact hend blanks
  | cons c t ih =>
    rcases hstep blanks c t with hheld | ⟨out, hout, hwritten⟩
    · have hrest := ih (blanks ++ [c])
      rw [hheld, List.length_cons]
      rw [List.length_append, List.length_singleton] at hrest
      omega
    · have hrest := ih []
      rw [hwritten, List.length_append, List.length_cons, List.length_cons]
      rw [List.length_nil] at hrest
      omega

theorem length_collapseFrom_le (blanks t : Text) :
    (collapseFrom blanks t).length ≤ blanks.length + t.length := by
  have hfold : ∀ b : Text, (if 2 ≤ b.length then [' '] else b).length ≤ b.length := by
    intro b
    split
    · next hlong => exact Nat.le_of_succ_le hlong
    · exact Nat.le_refl _
  refine length_pass_le hfold (fun blanks c t => ?_) blanks t
  rw [collapseFrom]
  split
  · exact Or.inl rfl
  · exact Or.inr ⟨_, hfold blanks, rfl⟩

theorem length_closeFrom_le (blanks t : Text) :
    (closeFrom blanks t).length ≤ blanks.length + t.length := by
  refine length_pass_le (fun b => Nat.le_refl _) (fun blanks c t => ?_) blanks t
  rw [closeFrom]
  split
  · exact Or.inl rfl
  · refine Or.inr ⟨_, ?_, rfl⟩
    split
    · exact Nat.zero_le _
    · exact Nat.le_refl _

theorem length_foldBlanks_le (t : Text) : (foldBlanks t).length ≤ t.length := by
  have hclose := length_closeFrom_le [] (collapseBlanks t)
  have hcollapse := length_collapseFrom_le [] t
  rw [List.length_nil, Nat.zero_add] at hclose hcollapse
  exact hclose.trans hcollapse

/-! ### Words -/

/-- What the run being read is, once it ends. -/
def finished (word : Text) : List Text := if word.isEmpty then [] else [word]

variable (U) in
/-- The runs of word characters of a text, `word` read so far. -/
def wordRunsFrom (word : Text) : Text → List Text
  | [] => finished word
  | c :: t =>
    if U.word c then wordRunsFrom (word ++ [c]) t else finished word ++ wordRunsFrom [] t

theorem map_wordSpansFrom (start place : Nat) (word t : Text) :
    (wordSpansFrom U start place word t).map Prod.snd = wordRunsFrom U word t := by
  induction t generalizing start place word with
  | nil =>
    rw [wordSpansFrom, wordRunsFrom, finished]
    split <;> rfl
  | cons c t ih =>
    rw [wordSpansFrom, wordRunsFrom, finished]
    split
    · exact ih _ _ _
    · rw [List.map_append, ih]
      split <;> rfl

theorem markersInBracket_eq (t : Text) :
    markersInBracket U t = (wordRunsFrom U [] t).filterMap (markerWord U) := by
  rw [← map_wordSpansFrom 0 0, List.filterMap_map]
  rfl

theorem wordRunsFrom_gap (hgap : ∀ c ∈ gap, U.word c = false) (hne : gap ≠ []) (word t : Text) :
    wordRunsFrom U word (gap ++ t) = finished word ++ wordRunsFrom U [] t := by
  induction gap generalizing word with
  | nil => exact absurd rfl hne
  | cons c gap ih =>
    obtain ⟨hc, hgap⟩ := List.forall_mem_cons.mp hgap
    rw [List.cons_append, wordRunsFrom, hc, if_neg Bool.false_ne_true]
    by_cases hlast : gap = []
    · rw [hlast, List.nil_append]
    · rw [ih hgap hlast]
      rfl

theorem wordRunsFrom_word {word : Text} (hword : ∀ c ∈ word, U.word c = true) (read t : Text) :
    wordRunsFrom U read (word ++ t) = wordRunsFrom U (read ++ word) t := by
  induction word generalizing read with
  | nil => rw [List.nil_append, List.append_nil]
  | cons c word ih =>
    obtain ⟨hc, hword⟩ := List.forall_mem_cons.mp hword
    rw [List.cons_append, wordRunsFrom, if_pos hc, ih hword, List.append_assoc,
      List.singleton_append]

theorem wordRunsFrom_append_congr {u v : Text}
    (h : ∀ word, wordRunsFrom U word u = wordRunsFrom U word v) (a word : Text) :
    wordRunsFrom U word (a ++ u) = wordRunsFrom U word (a ++ v) := by
  induction a generalizing word with
  | nil => exact h word
  | cons c a ih => simp only [List.cons_append, wordRunsFrom, ih]

variable {T : Tables}

theorem word_of_isBlank (h : isBlank c = true) : T.word c = false := by
  rw [isBlank, Bool.or_eq_true, beq_iff_eq, beq_iff_eq] at h
  rw [Bool.eq_false_iff]
  intro hword
  rcases h with rfl | rfl
  · exact absurd (T.word_ascii _ (by decide) hword) (by decide)
  · exact absurd (T.word_ascii _ (by decide) hword) (by decide)

theorem word_of_mark (h : c ∈ marks) : T.word c = false := by
  have hclass : c.toNat < 128 ∧ c.isAlphanum = false ∧ c ≠ '_' := by
    have hall : (marks.all fun c => decide (c.toNat < 128) && (!c.isAlphanum && c != '_')) = true :=
      rfl
    simpa using List.all_eq_true.mp hall c h
  rw [Bool.eq_false_iff]
  intro hword
  rcases T.word_ascii c hclass.1 hword with halnum | hline
  · rw [hclass.2.1] at halnum
    cases halnum
  · exact hclass.2.2 hline

theorem wordRunsFrom_collapseFrom (t word : Text) (hblanks : ∀ c ∈ blanks, isBlank c = true) :
    wordRunsFrom T.toUnicode word (collapseFrom blanks t) =
      wordRunsFrom T.toUnicode word (blanks ++ t) := by
  have hfold : ∀ {b : Text}, (∀ c ∈ b, isBlank c = true) → ∀ word t : Text,
      wordRunsFrom T.toUnicode word ((if 2 ≤ b.length then [' '] else b) ++ t) =
        wordRunsFrom T.toUnicode word (b ++ t) := by
    intro b hb word t
    split
    · next hlong =>
      have hne : b ≠ [] := fun hnil => by simp [hnil] at hlong
      have hspace : ∀ c ∈ [' '], T.word c = false :=
        fun c hc => word_of_isBlank (List.mem_singleton.mp hc ▸ rfl)
      rw [wordRunsFrom_gap hspace (List.cons_ne_nil _ _),
        wordRunsFrom_gap (fun c hc => word_of_isBlank (hb c hc)) hne]
    · rfl
  induction t generalizing word blanks with
  | nil =>
    have hnil := hfold hblanks word []
    rwa [List.append_nil] at hnil
  | cons c t ih =>
    rw [collapseFrom]
    split
    · next hc =>
      rw [ih word fun d hd => (List.mem_append.mp hd).elim (hblanks d) fun hd =>
        List.mem_singleton.mp hd ▸ hc, List.append_assoc, List.singleton_append]
    · have hrest : ∀ word, wordRunsFrom T.toUnicode word (collapseFrom [] t) =
          wordRunsFrom T.toUnicode word t := fun word => ih word nofun
      rw [hfold hblanks]
      exact wordRunsFrom_append_congr (fun word => wordRunsFrom_append_congr hrest [c] word) _ _

theorem wordRunsFrom_closeFrom (t word : Text) (hblanks : ∀ c ∈ blanks, isBlank c = true) :
    wordRunsFrom T.toUnicode word (closeFrom blanks t) =
      wordRunsFrom T.toUnicode word (blanks ++ t) := by
  induction t generalizing word blanks with
  | nil => rw [closeFrom, List.append_nil]
  | cons c t ih =>
    rw [closeFrom]
    split
    · next hc =>
      rw [ih word fun d hd => (List.mem_append.mp hd).elim (hblanks d) fun hd =>
        List.mem_singleton.mp hd ▸ hc, List.append_assoc, List.singleton_append]
    · have hrest : ∀ word, wordRunsFrom T.toUnicode word (closeFrom [] t) =
          wordRunsFrom T.toUnicode word t := fun word => ih word nofun
      have hbehind := wordRunsFrom_append_congr hrest [c]
      split
      · next hmark =>
        -- the blanks go, and the mark still ends the word
        have hc : ∀ d ∈ [c], T.word d = false :=
          fun d hd => List.mem_singleton.mp hd ▸ word_of_mark hmark
        have hone := wordRunsFrom_gap hc (List.cons_ne_nil _ _) word t
        have hall : ∀ d ∈ blanks ++ [c], T.word d = false := fun d hd =>
          (List.mem_append.mp hd).elim (fun hd => word_of_isBlank (hblanks d hd)) (hc d)
        have hgap := wordRunsFrom_gap hall (by simp) word t
        rw [List.append_assoc] at hgap
        exact (hbehind word).trans (hone.trans hgap.symm)
      · exact wordRunsFrom_append_congr hbehind _ _

theorem markersInBracket_foldBlanks (t : Text) :
    markersInBracket T.toUnicode (foldBlanks t) = markersInBracket T.toUnicode t := by
  have hnone : ∀ c ∈ ([] : Text), isBlank c = true := List.forall_mem_nil _
  rw [markersInBracket_eq, foldBlanks, closePunctuation, wordRunsFrom_closeFrom _ _ hnone,
    List.nil_append, collapseBlanks, wordRunsFrom_collapseFrom _ _ hnone, List.nil_append,
    markersInBracket_eq]

/-! ### Legacy markers -/

theorem isBlank_of_not_isSpace (h : Text.isSpace c = false) : isBlank c = false := by
  rw [isBlank, Bool.or_eq_false_iff, beq_eq_false_iff_ne, beq_eq_false_iff_ne]
  refine ⟨?_, ?_⟩ <;>
    · rintro rfl
      exact absurd h (by decide)

theorem not_mark_of_isDigit (h : c.isDigit = true) : c ∉ marks := by
  intro hmark
  have hall : (marks.all fun c => !c.isDigit) = true := rfl
  have hnot := List.all_eq_true.mp hall c hmark
  rw [h] at hnot
  cases hnot

theorem fold_eq_self (h : isBlank c = true ∨ c ∈ marks) : T.fold c = c := by
  have hclass : c.toNat < 128 ∧ c.isAlpha = false := by
    rcases h with h | h
    · rw [isBlank, Bool.or_eq_true, beq_iff_eq, beq_iff_eq] at h
      rcases h with rfl | rfl <;> decide
    · have hall : (marks.all fun c => decide (c.toNat < 128) && !c.isAlpha) = true := rfl
      simpa using List.all_eq_true.mp hall c h
  exact T.fold_ascii c hclass.1 hclass.2

theorem foldBlanks_spaces (hgap : ∀ c ∈ gap, Text.isSpace c = true) :
    ∀ c ∈ foldBlanks gap, Text.isSpace c = true := by
  intro c hc
  rcases mem_foldBlanks hc with hc | rfl
  · exact hgap c hc
  · decide

theorem lstrip_foldBlanks (hc : Text.isSpace c = false) (hmark : c ∉ marks)
    (hgap : ∀ d ∈ gap, Text.isSpace d = true) (t : Text) :
    Text.lstrip (foldBlanks (gap ++ c :: t)) = foldBlanks (c :: t) := by
  have hblank : isBlank c = false := isBlank_of_not_isSpace hc
  rw [foldBlanks_append hblank hmark, foldBlanks_cons hblank]
  refine Text.dropWhile_run (foldBlanks_spaces hgap) fun d hd => ?_
  rw [List.head?_cons, Option.mem_some_iff] at hd
  exact hd ▸ hc

theorem rstrip_foldBlanks (hdigits : ∀ c ∈ digits, c.isDigit = true)
    (hgap : ∀ c ∈ gap, Text.isSpace c = true) :
    Text.rstrip (foldBlanks (digits ++ gap)) = digits := by
  have hvisible : ∀ c ∈ digits, Text.isSpace c = false :=
    fun c hc => isSpace_of_isDigit (hdigits c hc)
  rw [foldBlanks_visible fun c hc => isBlank_of_not_isSpace (hvisible c hc), Text.rstrip,
    List.reverse_append, Text.dropWhile_run, List.reverse_reverse]
  · intro c hc
    exact foldBlanks_spaces hgap c (List.mem_reverse.mp hc)
  · intro c hc
    exact hvisible c (List.mem_reverse.mp (List.mem_of_mem_head? hc))

/-- A literal that is read before the folds is read after them. -/
def Folds (T : Tables) (literal : Text) : Prop :=
  ∀ t rest, afterLiteral T.toUnicode literal t = some rest →
    afterLiteral T.toUnicode literal (foldBlanks t) = some (foldBlanks rest)

theorem Folds.cons {literal : Text} (h : Folds T literal) {p : Char} (hp : isBlank p = false) :
    Folds T (p :: literal) := by
  intro t rest hread
  cases t with
  | nil => cases hread
  | cons c t =>
    by_cases hfold : T.fold c = p
    · have hc : isBlank c = false := by
        rw [Bool.eq_false_iff]
        intro hblank
        rw [fold_eq_self (.inl hblank)] at hfold
        rw [hfold, hp] at hblank
        cases hblank
      rw [afterLiteral, if_pos hfold] at hread
      rw [foldBlanks_cons hc, afterLiteral, if_pos hfold]
      exact h t rest hread
    · rw [afterLiteral, if_neg hfold] at hread
      cases hread

theorem Folds.blank {literal : Text} {p : Char} (h : Folds T (p :: literal))
    (hp : isBlank p = false) (hmark : p ∉ marks) : Folds T (' ' :: p :: literal) := by
  intro t rest hread
  rcases t with _ | ⟨c, _ | ⟨d, t⟩⟩
  · cases hread
  · rw [afterLiteral] at hread
    split at hread <;> cases hread
  · by_cases hfold : T.fold c = ' '
    · rw [afterLiteral, if_pos hfold] at hread
      have hd : isBlank d = false ∧ d ∉ marks := by
        have hfoldd : T.fold d = p := by
          by_contra hne
          rw [afterLiteral, if_neg hne] at hread
          cases hread
        refine ⟨Bool.eq_false_iff.mpr fun hblank => ?_, fun hd => hmark ?_⟩
        · rw [fold_eq_self (.inl hblank)] at hfoldd
          rw [hfoldd, hp] at hblank
          cases hblank
        · rwa [← hfoldd, fold_eq_self (.inr hd)]
      have hfolded : foldBlanks (c :: d :: t) = c :: foldBlanks (d :: t) := by
        by_cases hblank : isBlank c = true
        · rw [fold_eq_self (.inl hblank)] at hfold
          rw [hfold]
          exact foldBlanks_blank hd.1 hd.2 t
        · exact foldBlanks_cons (Bool.not_eq_true _ ▸ hblank) _
      rw [hfolded, afterLiteral, if_pos hfold]
      exact h _ rest hread
    · rw [afterLiteral, if_neg hfold] at hread
      cases hread

theorem folds_sourceId : Folds T "source id:".toList := by
  have hnil : Folds T [] := by
    intro t rest hread
    obtain rfl : t = rest := Option.some.inj hread
    rfl
  have hid : Folds T ['i', 'd', ':'] :=
    ((hnil.cons (p := ':') rfl).cons (p := 'd') rfl).cons (p := 'i') rfl
  have hblank : Folds T [' ', 'i', 'd', ':'] := hid.blank rfl (by decide)
  exact (((((hblank.cons (p := 'e') rfl).cons (p := 'c') rfl).cons (p := 'r') rfl).cons
    (p := 'u') rfl).cons (p := 'o') rfl).cons (p := 's') rfl

theorem fold_digit (h : c.isDigit = true) : T.fold c = c := by
  obtain ⟨hlo, hhi⟩ : 48 ≤ c.toNat ∧ c.toNat ≤ 57 := Char.isDigit_iff_toNat.mp h
  refine T.fold_ascii c (by omega) ?_
  have hclass : c.isAlpha = (decide (c.val ≥ 'A'.val ∧ c.val ≤ 'Z'.val) ||
      (decide (c.val ≥ 'a'.val) && decide (c.val ≤ 'z'.val))) := rfl
  have hnat : c.toNat = c.val.toNat := rfl
  have hA : 'A'.val.toNat = 65 := rfl
  have ha : 'a'.val.toNat = 97 := rfl
  rw [hclass]
  simp only [ge_iff_le, UInt32.le_iff_toNat_le, Bool.or_eq_false_iff, Bool.and_eq_false_iff,
    decide_eq_false_iff_not]
  omega

theorem lstrip_foldBlanks_digits {run : Text} (hgap : ∀ c ∈ gap, Text.isSpace c = true)
    (hdigits : ∀ c ∈ digits, c.isDigit = true) (hne : digits ≠ []) :
    Text.lstrip (foldBlanks (gap ++ (digits ++ run))) = foldBlanks (digits ++ run) := by
  cases digits with
  | nil => exact absurd rfl hne
  | cons d digits =>
    have hd : d.isDigit = true := hdigits d List.mem_cons_self
    exact lstrip_foldBlanks (isSpace_of_isDigit hd) (not_mark_of_isDigit hd) hgap _

theorem legacyDigits_foldBlanks
    (hread : Text.rstrip (afterSourceId T.toUnicode (Text.lstrip t)) = digits)
    (hdigits : ∀ c ∈ digits, c.isDigit = true) (hne : digits ≠ []) :
    Text.rstrip (afterSourceId T.toUnicode (Text.lstrip (foldBlanks t))) = digits := by
  obtain ⟨gap, hgap, ht, hhead⟩ := Text.dropWhile_split Text.isSpace t
  have hstripped : Text.lstrip t = t.dropWhile Text.isSpace := rfl
  rw [hstripped, afterSourceId] at hread
  rw [ht]
  cases hliteral : afterLiteral T.toUnicode "source id:".toList (t.dropWhile Text.isSpace) with
  | none =>
    rw [hliteral] at hread
    obtain ⟨run, hrun, hsplit⟩ := Text.rstrip_prefix (t.dropWhile Text.isSpace)
    rw [hread] at hsplit
    have hnone : afterLiteral T.toUnicode "source id:".toList (foldBlanks (digits ++ run)) =
        none := by
      obtain ⟨d, rest, rfl⟩ := List.exists_cons_of_ne_nil hne
      have hd : d.isDigit = true := hdigits d List.mem_cons_self
      have hs : T.fold d ≠ 's' := by
        rw [fold_digit hd]
        rintro rfl
        exact absurd hd (by decide)
      have hlit : "source id:".toList = 's' :: "ource id:".toList := rfl
      rw [List.cons_append, foldBlanks_cons (isBlank_of_not_isSpace (isSpace_of_isDigit hd)),
        hlit, afterLiteral, if_neg hs]
    rw [hsplit, lstrip_foldBlanks_digits hgap hdigits hne, afterSourceId, hnone]
    exact rstrip_foldBlanks hdigits hrun
  | some rest =>
    rw [hliteral] at hread
    obtain ⟨inside, hinside, hrest, -⟩ := Text.dropWhile_split Text.isSpace rest
    obtain ⟨run, hrun, hsplit⟩ := Text.rstrip_prefix (Text.lstrip rest)
    have hstart : Text.lstrip (foldBlanks (gap ++ t.dropWhile Text.isSpace)) =
        foldBlanks (t.dropWhile Text.isSpace) := by
      have hlit : "source id:".toList = 's' :: "ource id:".toList := rfl
      rw [hlit] at hliteral
      cases hu : t.dropWhile Text.isSpace with
      | nil => simp [hu, afterLiteral] at hliteral
      | cons c u =>
        rw [hu] at hliteral hhead
        refine lstrip_foldBlanks (hhead c rfl) (fun hmark => ?_) hgap u
        rw [afterLiteral, fold_eq_self (.inr hmark)] at hliteral
        split at hliteral
        · next hc => exact absurd (hc ▸ hmark) (by decide)
        · cases hliteral
    rw [hread] at hsplit
    have hbehind : rest = inside ++ (digits ++ run) := hsplit ▸ hrest
    rw [hstart, afterSourceId, folds_sourceId _ _ hliteral]
    simp only
    rw [hbehind, lstrip_foldBlanks_digits hinside hdigits hne]
    exact rstrip_foldBlanks hdigits hrun

variable {n : Nat}

theorem legacyBare_foldBlanks (h : legacyBare T.toUnicode t = some n) :
    legacyBare T.toUnicode (foldBlanks t) = some n := by
  rw [legacyBare] at h
  split at h
  · next hdigits =>
    obtain ⟨hlen, hall⟩ := hdigits
    have hne : Text.rstrip (afterSourceId T.toUnicode (Text.lstrip t)) ≠ [] := by
      intro hnil
      rw [hnil] at hlen
      rcases hlen with hlen | hlen <;> cases hlen
    have hsame := legacyDigits_foldBlanks rfl (List.all_eq_true.mp hall) hne
    rw [legacyBare, hsame, if_pos ⟨hlen, hall⟩]
    exact h
  · cases h

/-- A run that names an id names the same ids once folded. -/
theorem markerIds_foldBlanks (h : markerIds T.toUnicode t ≠ []) :
    markerIds T.toUnicode (foldBlanks t) = markerIds T.toUnicode t := by
  simp only [markerIds, markersInBracket_foldBlanks] at h ⊢
  split
  · next hempty =>
    rw [if_pos hempty] at h
    obtain ⟨n, hn⟩ : ∃ n, legacyBare T.toUnicode t = some n := by
      cases hlegacy : legacyBare T.toUnicode t with
      | none => simp [hlegacy] at h
      | some n => exact ⟨n, rfl⟩
    rw [hn, legacyBare_foldBlanks hn]
  · rfl

/-! ### Groups -/

def grouped (ids : List Nat) : Text := Text.join ", ".toList (ids.map sourceId)

theorem grouped_singleton (n : Nat) : grouped [n] = sourceId n := by
  simp [grouped, Text.join]

theorem grouped_cons_cons (n m : Nat) (ids : List Nat) :
    grouped (n :: m :: ids) = sourceId n ++ ([',', ' '] ++ grouped (m :: ids)) := by
  rw [grouped, List.map_cons, List.map_cons, Text.join_cons_cons, grouped, List.map_cons,
    Text.toList_lit (t := [',', ' ']) rfl]

theorem grouped_head (n : Nat) (ids : List Nat) : ∃ rest, grouped (n :: ids) = 'C' :: rest := by
  cases ids with
  | nil => exact ⟨_, grouped_singleton n⟩
  | cons m ids => exact ⟨_, grouped_cons_cons n m ids⟩

theorem plain_grouped (ids : List Nat) : Plain (grouped ids) := by
  induction ids with
  | nil => exact List.forall_mem_nil _
  | cons n ids ih =>
    cases ids with
    | nil => exact grouped_singleton n ▸ plain_sourceId n
    | cons m ids =>
      exact (plain_sourceId n).append (Plain.append (by decide) ih)

theorem isBlank_of_mem_sourceId (h : c ∈ sourceId n) : isBlank c = false := by
  have halnum := isAlphanum_of_mem_sourceId h
  rw [isBlank, Bool.or_eq_false_iff, beq_eq_false_iff_ne, beq_eq_false_iff_ne]
  refine ⟨?_, ?_⟩ <;>
    · rintro rfl
      exact absurd halnum (by decide)

theorem foldBlanks_grouped (ids : List Nat) : foldBlanks (grouped ids) = grouped ids := by
  induction ids with
  | nil => rfl
  | cons n ids ih =>
    have hvisible : ∀ c ∈ sourceId n, isBlank c = false := fun _ => isBlank_of_mem_sourceId
    cases ids with
    | nil =>
      have hlone := foldBlanks_visible hvisible []
      rw [List.append_nil] at hlone
      rw [grouped_singleton, hlone]
      exact List.append_nil _
    | cons m ids =>
      obtain ⟨rest, hrest⟩ := grouped_head m ids
      have hspace : foldBlanks (' ' :: grouped (m :: ids)) = ' ' :: grouped (m :: ids) := by
        rw [hrest, foldBlanks_blank rfl (by decide), ← hrest, ih]
      rw [grouped_cons_cons, foldBlanks_visible hvisible, List.cons_append, List.cons_append,
        List.nil_append, foldBlanks_cons rfl, hspace]

theorem wordRunsFrom_grouped (ids : List Nat) :
    wordRunsFrom T.toUnicode [] (grouped ids) = ids.map sourceId := by
  induction ids with
  | nil => rfl
  | cons n ids ih =>
    have hword : ∀ c ∈ sourceId n, T.word c = true := fun c hc =>
      T.word_of_isAlphanum c (isAlphanum_of_mem_sourceId hc)
    have hread := wordRunsFrom_word (U := T.toUnicode) hword []
    cases ids with
    | nil =>
      have hlone := hread []
      rw [List.append_nil] at hlone
      rw [grouped_singleton, hlone]
      rfl
    | cons m ids =>
      have hgap : ∀ c ∈ [',', ' '], T.word c = false :=
        List.forall_mem_cons.mpr ⟨word_of_mark (by decide),
          List.forall_mem_cons.mpr ⟨word_of_isBlank rfl, List.forall_mem_nil _⟩⟩
      rw [grouped_cons_cons, hread, wordRunsFrom_gap hgap (List.cons_ne_nil _ _), ih]
      rfl

/-- A group names the ids it is made of. -/
theorem markerIds_grouped {ids : List Nat} (hne : ids ≠ []) (hids : ∀ n ∈ ids, n ≤ 999) :
    markerIds T.toUnicode (grouped ids) = ids := by
  have hfound : markersInBracket T.toUnicode (grouped ids) = ids := by
    rw [markersInBracket_eq, wordRunsFrom_grouped, List.filterMap_map]
    calc ids.filterMap (markerWord T.toUnicode ∘ sourceId)
        = ids.filterMap some :=
          List.filterMap_congr fun n hn => markerWord_sourceId (hids n hn)
      _ = ids := List.filterMap_some
  simp [markerIds, hfound, hne]

/-! ### What stands for a run -/

variable (U) in
/-- The filter takes a run for a citation. -/
def isCitation (inner : Text) : Bool := capped inner && !(markerIds U inner).isEmpty

variable (U) in
def keptIds (known : List Nat) (inner : Text) : List Nat :=
  (markerIds U inner).filter (known.contains ·)

variable (U) in
/-- The filter writes a citation anew: some of its ids are known. -/
def isRegrouped (known : List Nat) (inner : Text) : Bool :=
  isCitation U inner && !(keptIds U known inner).isEmpty &&
    (keptIds U known inner).length != (markerIds U inner).length

variable (U) in
def isOvergrown (known : List Nat) (inner : Text) : Bool :=
  isRegrouped U known inner && 240 < (grouped (keptIds U known inner)).length

variable (U) in
/-- A run names an id once its blanks are folded. -/
def Names (inner : Text) (n : Nat) : Prop :=
  capped (foldBlanks inner) = true ∧ n ∈ markerIds U (foldBlanks inner)

variable {known : List Nat} {inner y : Text}

theorem keepKnown_of_not_citation (h : isCitation U inner = false) :
    keepKnown U known inner = none := by
  rw [isCitation, Bool.and_eq_false_iff] at h
  rw [keepKnown, if_pos]
  simpa using h

theorem keepKnown_of_citation (h : isCitation U inner = true) : keepKnown U known inner =
    if (keptIds U known inner).isEmpty then some []
    else if isRegrouped U known inner then
      some ('[' :: (grouped (keptIds U known inner) ++ [']']))
    else none := by
  have hnot : (!capped inner || (markerIds U inner).isEmpty) = false := by
    rw [isCitation, Bool.and_eq_true, Bool.not_eq_true'] at h
    rw [h.1, h.2]
    rfl
  rw [keepKnown, hnot]
  by_cases hempty : (keptIds U known inner).isEmpty = true
  · rw [if_pos hempty]
    exact if_pos hempty
  · rw [if_neg hempty]
    refine (if_neg hempty).trans ?_
    by_cases hlen : (keptIds U known inner).length = (markerIds U inner).length
    · have hgroup : isRegrouped U known inner = false := by
        rw [isRegrouped, hlen, bne_self_eq_false, Bool.and_false]
      rw [hgroup]
      exact if_pos hlen
    · have hgroup : isRegrouped U known inner = true := by
        rw [isRegrouped, h, Bool.eq_false_iff.mpr hempty, bne_iff_ne.mpr hlen]
        rfl
      rw [hgroup]
      exact if_neg hlen

theorem rewrites_keepKnown (known : List Nat) : Rewrites (keepKnown U known) := by
  intro inner x hx
  cases hcitation : isCitation U inner with
  | false =>
    rw [keepKnown_of_not_citation hcitation] at hx
    cases hx
  | true =>
    rw [keepKnown_of_citation hcitation] at hx
    split at hx
    · exact .inl (Option.some.inj hx).symm
    · split at hx
      · exact .inr ⟨_, plain_grouped _, (Option.some.inj hx).symm⟩
      · cases hx

theorem names_self (h : isCitation T.toUnicode inner = true) :
    Names T.toUnicode inner n ↔ n ∈ markerIds T.toUnicode inner := by
  rw [isCitation, Bool.and_eq_true, Bool.not_eq_true', List.isEmpty_eq_false_iff] at h
  have hsame := markerIds_foldBlanks h.2
  have hcapped : capped (foldBlanks inner) = true := by
    have hle := length_foldBlanks_le inner
    have hpos : foldBlanks inner ≠ [] := by
      intro hnil
      rw [hnil] at hsame
      exact h.2 hsame.symm
    have hcap := h.1
    have hlen := List.length_pos_iff.mpr hpos
    simp only [capped, Bool.and_eq_true, decide_eq_true_eq] at hcap ⊢
    exact ⟨hlen, hle.trans hcap.2⟩
  rw [Names, hsame]
  exact and_iff_right hcapped

theorem length_grouped_pos {ids : List Nat} (h : ids ≠ []) : 1 ≤ (grouped ids).length := by
  obtain ⟨n, ids, rfl⟩ := List.exists_cons_of_ne_nil h
  obtain ⟨rest, hrest⟩ := grouped_head n ids
  rw [hrest]
  exact Nat.succ_le_succ (Nat.zero_le _)

theorem names_citation (h : isCitation T.toUnicode inner = true) :
    (∃ y, StandsFor (keepKnown T.toUnicode known) inner y ∧ Names T.toUnicode y n) ↔
      isOvergrown T.toUnicode known inner = false ∧ n ∈ keptIds T.toUnicode known inner := by
  by_cases hempty : (keptIds T.toUnicode known inner).isEmpty = true
  · have hgone : keepKnown T.toUnicode known inner = some [] := by
      rw [keepKnown_of_citation h, if_pos hempty]
    simp [Brackets.standsFor_of_some hgone, List.isEmpty_iff.mp hempty]
  · cases hgroup : isRegrouped T.toUnicode known inner with
    | false =>
      have hleft : keepKnown T.toUnicode known inner = none := by
        rw [keepKnown_of_citation h, if_neg hempty, hgroup, if_neg Bool.false_ne_true]
      have hall : keptIds T.toUnicode known inner = markerIds T.toUnicode inner := by
        have hlen : (keptIds T.toUnicode known inner).length =
            (markerIds T.toUnicode inner).length := by
          simpa [isRegrouped, h, Bool.eq_false_iff.mpr hempty] using hgroup
        exact List.filter_eq_self.mpr (List.length_filter_eq_length_iff.mp hlen)
      have hfits : isOvergrown T.toUnicode known inner = false := by rw [isOvergrown, hgroup]; rfl
      simp [Brackets.standsFor_of_none hleft, hfits, hall, names_self h]
    | true =>
      have hnew : keepKnown T.toUnicode known inner =
          some ('[' :: (grouped (keptIds T.toUnicode known inner) ++ [']'])) := by
        rw [keepKnown_of_citation h, if_neg hempty, hgroup, if_pos rfl]
      have hne : keptIds T.toUnicode known inner ≠ [] := fun hnil => hempty (by rw [hnil]; rfl)
      have hnames : Names T.toUnicode (grouped (keptIds T.toUnicode known inner)) n ↔
          isOvergrown T.toUnicode known inner = false ∧
            n ∈ keptIds T.toUnicode known inner := by
        have hids : ∀ m ∈ keptIds T.toUnicode known inner, m ≤ 999 :=
          fun m hm => le_of_mem_markerIds (List.mem_of_mem_filter hm)
        have hlen := length_grouped_pos hne
        rw [Names, foldBlanks_grouped, markerIds_grouped hne hids, isOvergrown, hgroup]
        simp only [capped, Bool.true_and, Bool.and_eq_true, decide_eq_true_eq,
          decide_eq_false_iff_not, Nat.not_lt, and_congr_left_iff]
        exact fun _ => and_iff_right hlen
      rw [← hnames]
      refine ⟨?_, fun hn => ⟨_, (Brackets.standsFor_of_some hnew).mpr rfl, hn⟩⟩
      rintro ⟨y, hy, hn⟩
      have hsame := List.append_cancel_right
        (List.cons.inj ((Brackets.standsFor_of_some hnew).mp hy)).2
      exact hsame ▸ hn

/-! ### The stripped answer -/

variable (U) in
/-- The texts the filter takes for no citation: runs that close only once unknown markers are gone,
are too long or name nothing. -/
def loose (known : List Nat) (answer : Text) : List Text :=
  hollows (keepKnown U known) answer ++ (runs answer).filter fun inner => !isCitation U inner

variable (U) in
/-- **Nothing turns into a citation, and none is lost**: what the filter takes for no citation names
only known ids once its blanks are folded, and the ids of a group that grows too long are named
elsewhere. -/
structure Settled (known : List Nat) (answer : Text) : Prop where
  minted : ∀ inner ∈ loose U known answer, ∀ n, Names U inner n → n ∈ known
  lost : ∀ inner ∈ runs answer, isOvergrown U known inner = true → ∀ n ∈ keptIds U known inner,
    (∃ other ∈ loose U known answer, Names U other n) ∨
      ∃ other ∈ runs answer, isCitation U other = true ∧ isOvergrown U known other = false ∧
        n ∈ markerIds U other

theorem mem_keptIds : n ∈ keptIds U known inner ↔ n ∈ markerIds U inner ∧ n ∈ known := by
  simp [keptIds]

theorem mem_readIds_iff :
    n ∈ readIds U t ↔ ∃ inner ∈ runs t, isCitation U inner = true ∧ n ∈ markerIds U inner := by
  simp only [readIds, List.mem_flatMap, List.mem_filter, and_assoc, isCitation, Bool.and_eq_true,
    Bool.not_eq_true', List.isEmpty_eq_false_iff]
  refine exists_congr fun inner => and_congr_right fun _ => and_congr_right fun _ => ?_
  exact ⟨fun hn => ⟨List.ne_nil_of_mem hn, hn⟩, fun h => h.2⟩

theorem mem_readIds_foldBlanks :
    n ∈ readIds U (foldBlanks t) ↔ ∃ inner ∈ runs t, Names U inner n := by
  simp only [readIds, List.mem_flatMap, List.mem_filter, runs_foldBlanks, List.mem_map]
  refine ⟨?_, ?_⟩
  · rintro ⟨_, ⟨⟨inner, hinner, rfl⟩, hcapped⟩, hn⟩
    exact ⟨inner, hinner, hcapped, hn⟩
  · rintro ⟨inner, hinner, hcapped, hn⟩
    exact ⟨_, ⟨⟨inner, hinner, rfl⟩, hcapped⟩, hn⟩

/-- **The ids read in the stripped answer** are those its citations keep, and those that what was no
citation names. -/
theorem mem_readIds_stripped {answer : Text} :
    n ∈ readIds T.toUnicode (stripUnknownMarkers T.toUnicode known answer) ↔
      (∃ other ∈ loose T.toUnicode known answer, Names T.toUnicode other n) ∨
        ∃ inner ∈ runs answer, isCitation T.toUnicode inner = true ∧
          isOvergrown T.toUnicode known inner = false ∧
            n ∈ keptIds T.toUnicode known inner := by
  have hstrip : stripUnknownMarkers T.toUnicode known answer =
      Text.strip (foldBlanks (replace (keepKnown T.toUnicode known) answer)) := rfl
  rw [hstrip, readIds_strip, mem_readIds_foldBlanks]
  simp only [Brackets.mem_runs_replace (rewrites_keepKnown known), loose, List.mem_append,
    List.mem_filter, Bool.not_eq_true']
  refine ⟨?_, ?_⟩
  · rintro ⟨y, hhollow | ⟨inner, hinner, hy⟩, hn⟩
    · exact .inl ⟨y, .inl hhollow, hn⟩
    · cases hcitation : isCitation T.toUnicode inner with
      | false =>
        obtain rfl := (Brackets.standsFor_of_none (keepKnown_of_not_citation hcitation)).mp hy
        exact .inl ⟨inner, .inr ⟨hinner, hcitation⟩, hn⟩
      | true => exact .inr ⟨inner, hinner, hcitation, (names_citation hcitation).mp ⟨y, hy, hn⟩⟩
  · rintro (⟨other, hhollow | ⟨hother, hcitation⟩, hn⟩ | ⟨inner, hinner, hcitation, hkept⟩)
    · exact ⟨other, .inl hhollow, hn⟩
    · have hstands : StandsFor (keepKnown T.toUnicode known) other other :=
        (Brackets.standsFor_of_none (keepKnown_of_not_citation hcitation)).mpr rfl
      exact ⟨other, .inr ⟨other, hother, hstands⟩, hn⟩
    · obtain ⟨y, hy, hn⟩ := (names_citation hcitation).mpr hkept
      exact ⟨y, .inr ⟨inner, hinner, hy⟩, hn⟩

/-- **Known citations only, and all of them**: the ids read in the stripped answer are the known
ones of the answer, exactly where nothing turns into a citation and none is lost. -/
theorem stripped_iff (T : Tables) (known : List Nat) (answer : Text) :
    ((∀ n ∈ extractCitationIds T.toUnicode (stripUnknownMarkers T.toUnicode known answer),
        n ∈ known) ∧
      ∀ n ∈ extractCitationIds T.toUnicode answer, n ∈ known →
        n ∈ extractCitationIds T.toUnicode (stripUnknownMarkers T.toUnicode known answer)) ↔
      Settled T.toUnicode known answer := by
  simp only [mem_extractCitationIds, mem_readIds_stripped]
  refine ⟨fun hread => ⟨?_, ?_⟩, fun h => ⟨?_, ?_⟩⟩
  · intro inner hinner n hn
    exact hread.1 n (.inl ⟨inner, hinner, hn⟩)
  · intro inner hinner hgrown n hn
    have hcitation : isCitation T.toUnicode inner = true := by
      simp only [isOvergrown, isRegrouped, Bool.and_eq_true] at hgrown
      exact hgrown.1.1.1
    obtain ⟨hmarker, hin⟩ := mem_keptIds.mp hn
    refine (hread.2 n (mem_readIds_iff.mpr ⟨inner, hinner, hcitation, hmarker⟩) hin).imp_right ?_
    rintro ⟨other, hother, hcited, hfits, hn⟩
    exact ⟨other, hother, hcited, hfits, (mem_keptIds.mp hn).1⟩
  · rintro n (⟨other, hother, hn⟩ | ⟨inner, -, -, -, hn⟩)
    · exact h.minted other hother n hn
    · exact (mem_keptIds.mp hn).2
  · intro n hn hin
    obtain ⟨inner, hinner, hcitation, hmarker⟩ := mem_readIds_iff.mp hn
    cases hgrown : isOvergrown T.toUnicode known inner with
    | false =>
      exact .inr ⟨inner, hinner, hcitation, hgrown, mem_keptIds.mpr ⟨hmarker, hin⟩⟩
    | true =>
      refine (h.lost inner hinner hgrown n (mem_keptIds.mpr ⟨hmarker, hin⟩)).imp_right ?_
      rintro ⟨other, hother, hcited, hfits, hn⟩
      exact ⟨other, hother, hcited, hfits, mem_keptIds.mpr ⟨hn, hin⟩⟩

/-- Seventy-nine markers of one source, and one of another. -/
def longGroup : Text :=
  '[' :: (Text.join [','] (List.replicate 79 "C1".toList ++ ["C9".toList]) ++ [']'])

/-- Taking `[C9]` out of `[[C9]3]` leaves `[3]`, folding blanks makes a marker, and a long group
loses the source it names. -/
theorem stripping_unsettled :
    ¬ ((∀ n ∈ extractCitationIds ascii (stripUnknownMarkers ascii [1] "[[C9]3]".toList), n ∈ [1]) ∧
      ∀ n ∈ extractCitationIds ascii "[[C9]3]".toList, n ∈ [1] →
        n ∈ extractCitationIds ascii (stripUnknownMarkers ascii [1] "[[C9]3]".toList)) ∧
    3 ∈ extractCitationIds ascii (stripUnknownMarkers ascii [1] "[Source ID :3]".toList) ∧
    extractCitationIds ascii longGroup = [1, 9] ∧
    extractCitationIds ascii (stripUnknownMarkers ascii [1] longGroup) = [] := by
  decide +kernel

end QnscKb.Ask
