import Mathlib.Data.List.TakeDrop
import QnscKb.Ask.StreamLines

/-!
# Ask — Streaming

What the reader is shown of an output while it arrives, and the grounded section it is split into
when it is complete.  Both read a line alike where a sentinel has no white space in or behind it and
no second sentinel follows, and where no code fence opened there comes between inline sentinels
(`tidy`).
-/

namespace QnscKb.Ask

variable {U : Unicode} {K : Casing U}

/-! ### The splitter's lines -/

def brokenLines (U : Unicode) (inFence : Bool) : List Text → List Text
  | [] => []
  | line :: lines =>
    if togglesFence line then line :: brokenLines U (!inFence) lines
    else
      match if inFence then none else inlineSentinel U line with
      | some (sentinel, content) =>
        (Text.strip sentinel ++ ['\n']) :: content :: brokenLines U inFence lines
      | none => line :: brokenLines U inFence lines

/-- The broken text is the broken lines in a row. -/
theorem breakInlineFrom_eq (inFence : Bool) (lines : List Text) :
    breakInlineFrom U inFence lines = (brokenLines U inFence lines).flatten := by
  induction lines generalizing inFence with
  | nil => rfl
  | cons line lines ih =>
    rw [breakInlineFrom, brokenLines]
    by_cases htoggles : togglesFence line = true
    · rw [if_pos htoggles, if_pos htoggles, ih, List.flatten_cons]
    · rw [if_neg htoggles, if_neg htoggles]
      cases (if inFence then none else inlineSentinel U line) with
      | none => simp only [ih, List.flatten_cons]
      | some found => simp [ih]

variable {line sentinel content raw : Text}

theorem unbroken_inline (K : Casing U) (h : Unbroken line)
    (hfound : inlineSentinel U line = some (sentinel, content)) :
    Unbroken (Text.strip sentinel) ∧ content ≠ [] ∧ Unbroken content := by
  obtain ⟨kind, run, core, gap, -, -, -, -, rfl, -, c, t, rfl, -⟩ := (inlineSentinel_iff K).mp hfound
  refine ⟨h.mono fun d hd => List.mem_append_left _ (Text.mem_of_mem_strip hd), by simp, ?_⟩
  exact h.mono fun d hd => List.mem_append_right _ (List.mem_append_right _ hd)

theorem ended_brokenLines (K : Casing U) {lines : List Text} (h : Ended lines) (inFence : Bool) :
    Ended (brokenLines U inFence lines) := by
  induction lines generalizing inFence with
  | nil => trivial
  | cons line lines ih =>
    obtain ⟨hline, hlines⟩ := h
    have hlast : ∀ inFence, lines = [] → brokenLines U inFence lines = [] := by
      rintro inFence rfl
      rfl
    rw [brokenLines]
    split
    · refine ⟨hline.imp_right fun ⟨hne, hbody, hend⟩ => ⟨hne, hbody, hlast _ hend⟩, ih hlines _⟩
    · split
      next sentinel content hfound =>
        have hinline : inlineSentinel U line = some (sentinel, content) := by
          cases inFence with
          | true => cases hfound
          | false => exact hfound
        rcases hline with ⟨body, hbody, rfl⟩ | ⟨hne, hbody, hend⟩
        · rw [inlineSentinel_newline K, Option.map_eq_some_iff] at hinline
          obtain ⟨⟨sentinel', content'⟩, hinline, heq⟩ := hinline
          obtain ⟨rfl, rfl⟩ := Prod.mk.inj heq
          obtain ⟨hstrip, -, hcontent⟩ := unbroken_inline K hbody hinline
          exact ⟨.inl ⟨_, hstrip, rfl⟩, .inl ⟨_, hcontent, rfl⟩, ih hlines _⟩
        · obtain ⟨hstrip, hne, hcontent⟩ := unbroken_inline K hbody hinline
          exact ⟨.inl ⟨_, hstrip, rfl⟩, .inr ⟨hne, hcontent, hlast _ hend⟩, ih hlines _⟩
      next =>
        refine ⟨hline.imp_right fun ⟨hne, hbody, hend⟩ => ⟨hne, hbody, hlast _ hend⟩, ih hlines _⟩

/-! ### Marks -/

def markOf (U : Unicode) (inFence : Bool) (line : Text) : Option Sentinel :=
  if togglesFence line || inFence then none else sentinelLine U line

theorem sentinelLinesFrom_cons (inFence : Bool) (line : Text) (lines : List Text) :
    sentinelLinesFrom U inFence (line :: lines) = (line, markOf U inFence line) ::
      sentinelLinesFrom U (inFence ^^ togglesFence line) lines := by
  rw [sentinelLinesFrom, markOf]
  cases togglesFence line <;> cases inFence <;> rfl

theorem sentinelLinesFrom_fst (inFence : Bool) (lines : List Text) :
    (sentinelLinesFrom U inFence lines).map Prod.fst = lines := by
  induction lines generalizing inFence with
  | nil => rfl
  | cons line lines ih => rw [sentinelLinesFrom_cons, List.map_cons, ih]

/-- Lines that carry the marks the splitter would give them. -/
def Marked (U : Unicode) (inFence : Bool) (lines : List (Text × Option Sentinel)) : Prop :=
  sentinelLinesFrom U inFence (lines.map Prod.fst) = lines

theorem marked_sentinelLinesFrom (inFence : Bool) (lines : List Text) :
    Marked U inFence (sentinelLinesFrom U inFence lines) := by
  rw [Marked, sentinelLinesFrom_fst]

variable {inFence : Bool} {lines : List (Text × Option Sentinel)}

theorem marked_cons {line : Text × Option Sentinel} : Marked U inFence (line :: lines) ↔
      markOf U inFence line.1 = line.2 ∧ Marked U (inFence ^^ togglesFence line.1) lines := by
  rw [Marked, List.map_cons, sentinelLinesFrom_cons, List.cons.injEq, Prod.ext_iff]
  simp only [true_and]
  rfl

theorem togglesFence_of_mark {kind : Sentinel} (h : markOf U inFence line = some kind) :
    togglesFence line = false := by
  cases htoggles : togglesFence line with
  | true => simp [markOf, htoggles] at h
  | false => rfl

theorem Marked.of_append {before after : List (Text × Option Sentinel)}
    (h : Marked U inFence (before ++ after)) : Marked U inFence before := by
  induction before generalizing inFence with
  | nil => rfl
  | cons line before ih =>
    obtain ⟨hmark, hrest⟩ := marked_cons.mp h
    exact marked_cons.mpr ⟨hmark, ih hrest⟩

theorem Marked.erase {before after : List (Text × Option Sentinel)} {kind : Sentinel}
    (h : Marked U inFence (before ++ (line, some kind) :: after)) :
    Marked U inFence (before ++ after) := by
  induction before generalizing inFence with
  | nil =>
    obtain ⟨hmark, hrest⟩ := marked_cons.mp h
    rwa [togglesFence_of_mark hmark, Bool.xor_false] at hrest
  | cons first before ih =>
    obtain ⟨hmark, hrest⟩ := marked_cons.mp h
    exact marked_cons.mpr ⟨hmark, ih hrest⟩

def unmarked (lines : List (Text × Option Sentinel)) : List (Text × Option Sentinel) :=
  lines.filter fun line => line.2.isNone

theorem Marked.unmarked (h : Marked U inFence lines) : Marked U inFence (unmarked lines) := by
  induction lines generalizing inFence with
  | nil => rfl
  | cons line lines ih =>
    obtain ⟨hmark, hrest⟩ := marked_cons.mp h
    rw [QnscKb.Ask.unmarked, List.filter_cons]
    cases hnone : line.2 with
    | none =>
      exact marked_cons.mpr ⟨hmark, ih hrest⟩
    | some kind =>
      rw [hnone] at hmark
      rw [togglesFence_of_mark hmark, Bool.xor_false] at hrest
      exact ih hrest

theorem sentinelLines_flatMap (hended : Ended (lines.map Prod.fst))
    (hmarked : Marked U false lines) : sentinelLines U (lines.flatMap Prod.fst) = lines := by
  rw [sentinelLines, List.flatMap_def, splitLines_flatten hended]
  exact hmarked

theorem stripSentinelLines_flatMap (hended : Ended (lines.map Prod.fst))
    (hmarked : Marked U false lines) :
    stripSentinelLines U (lines.flatMap Prod.fst) =
      Text.join ['\n'] (((unmarked lines).map Prod.fst).map chomp) := by
  rw [stripSentinelLines, sentinelLines_flatMap hended hmarked, List.map_map]
  rfl

theorem strip_unmarked (hended : Ended (lines.map Prod.fst)) (hmarked : Marked U false lines) :
    Text.strip ((unmarked lines).flatMap Prod.fst) =
      Text.strip (stripSentinelLines U (lines.flatMap Prod.fst)) := by
  rw [stripSentinelLines_flatMap hended hmarked, ← strip_join_chomp, List.flatMap_def]
  exact hended.sublist (List.filter_sublist.map _)

/-! ### The sections -/

def markedLines (U : Unicode) (raw : Text) : List (Text × Option Sentinel) :=
  sentinelLines U (breakInlineSentinels U raw)

/-- The lines before the first `EXTENDED`, and those behind it. -/
def linesBefore (U : Unicode) (raw : Text) : List (Text × Option Sentinel) :=
  (markedLines U raw).takeWhile fun line => line.2 != some .extended

def beforeExtended (U : Unicode) (raw : Text) : Text := (linesBefore U raw).flatMap Prod.fst

def afterExtended (U : Unicode) (raw : Text) : Text :=
  ((markedLines U raw).dropWhile fun line => line.2 != some .extended).tail.flatMap Prod.fst

/-- No `EXTENDED` comes before the first `GROUNDED`. -/
def groundedFirst (U : Unicode) (raw : Text) : Bool :=
  (linesBefore U raw).any (fun line => line.2 == some .grounded) ||
    (markedLines U raw).all fun line => line.2 != some .extended

/-- The splitter's lines are the broken lines with their marks. -/
theorem markedLines_eq (K : Casing U) (h : NewlinesOnly raw) :
    markedLines U raw = sentinelLinesFrom U false (brokenLines U false (splitLines raw)) := by
  rw [markedLines, breakInlineSentinels, breakInlineFrom_eq, sentinelLines,
    splitLines_flatten (ended_brokenLines K (ended_splitLines h) false)]

theorem marked_markedLines (raw : Text) : Marked U false (markedLines U raw) :=
  marked_sentinelLinesFrom _ _

theorem ended_markedLines (K : Casing U) (h : NewlinesOnly raw) :
    Ended ((markedLines U raw).map Prod.fst) := by
  rw [markedLines_eq K h, sentinelLinesFrom_fst]
  exact ended_brokenLines K (ended_splitLines h) false

theorem marked_linesBefore (raw : Text) : Marked U false (linesBefore U raw) := by
  have h := marked_markedLines (U := U) raw
  rw [← List.takeWhile_append_dropWhile (p := fun line => line.2 != some .extended)
    (l := markedLines U raw)] at h
  exact h.of_append

theorem ended_linesBefore (K : Casing U) (h : NewlinesOnly raw) :
    Ended ((linesBefore U raw).map Prod.fst) :=
  (ended_markedLines K h).sublist ((List.takeWhile_sublist _).map _)

/-- The marked lines in a row are the broken text. -/
theorem flatMap_markedLines (K : Casing U) (h : NewlinesOnly raw) :
    (markedLines U raw).flatMap Prod.fst = breakInlineSentinels U raw := by
  rw [List.flatMap_def, markedLines_eq K h, sentinelLinesFrom_fst, breakInlineSentinels,
    breakInlineFrom_eq]

theorem normalizeAnswerMarkdown_congr {a b : Text} (h : Text.strip a = Text.strip b) :
    normalizeAnswerMarkdown U a = normalizeAnswerMarkdown U b := by
  rw [normalizeAnswerMarkdown, h, normalizeAnswerMarkdown]

theorem takeWhile_of_all {α : Type} {p : α → Bool} {l : List α} (h : ∀ x ∈ l, p x = true) :
    l.takeWhile p = l :=
  List.takeWhile_eq_self_iff.mpr h

/-- The sections are what stands around the first marks. -/
theorem splitAnswerSections_eq (raw : Text) : splitAnswerSections U raw =
    match (markedLines U raw).dropWhile fun line => line.2 != some .grounded with
    | [] => (normalizeAnswerMarkdown U (stripSentinelLines U (breakInlineSentinels U raw)), [])
    | _ :: after =>
      (normalizeAnswerMarkdown U (stripSentinelLines U
          (((markedLines U raw).takeWhile fun line => line.2 != some .grounded).flatMap Prod.fst ++
            (after.takeWhile fun line => line.2 != some .extended).flatMap Prod.fst)),
        normalizeAnswerMarkdown U (stripSentinelLines U
          ((after.dropWhile fun line => line.2 != some .extended).tail.flatMap Prod.fst))) := by
  rw [splitAnswerSections, ← markedLines, List.span_eq_takeWhile_dropWhile]
  cases (markedLines U raw).dropWhile fun line => line.2 != some .grounded with
  | nil => rfl
  | cons marker after =>
    simp only [List.span_eq_takeWhile_dropWhile]
    cases after.dropWhile fun line => line.2 != some .extended <;> rfl

theorem dropWhile_cons_split {α : Type} {p : α → Bool} {l after : List α} {x : α}
    (h : l.dropWhile p = x :: after) : l = l.takeWhile p ++ x :: after ∧ p x = false ∧
      ∀ y ∈ l.takeWhile p, p y = true := by
  refine ⟨by rw [← h, List.takeWhile_append_dropWhile], ?_, fun y hy => List.mem_takeWhile_imp hy⟩
  have hstop := List.head?_dropWhile_not p l
  rw [h] at hstop
  simpa using hstop

theorem grounded_eq (K : Casing U) (h : NewlinesOnly raw) (hfirst : groundedFirst U raw = true) :
    (splitAnswerSections U raw).1 =
      normalizeAnswerMarkdown U (stripSentinelLines U (beforeExtended U raw)) := by
  rw [splitAnswerSections_eq]
  rw [groundedFirst, Bool.or_eq_true, List.any_eq_true, List.all_eq_true] at hfirst
  cases hdrop : (markedLines U raw).dropWhile fun line => line.2 != some .grounded with
  | nil =>
    have hnone : ∀ line ∈ markedLines U raw, (line.2 != some .grounded) = true :=
      List.dropWhile_eq_nil_iff.mp hdrop
    have hall : ∀ line ∈ markedLines U raw, (line.2 != some .extended) = true := by
      refine hfirst.resolve_left ?_
      rintro ⟨line, hline, hmark⟩
      have hno := hnone line ((List.takeWhile_sublist _).mem hline)
      rw [bne, hmark] at hno
      cases hno
    rw [beforeExtended, linesBefore, takeWhile_of_all hall, flatMap_markedLines K h]
  | cons marker after =>
    obtain ⟨hsplit, hmarker, hbefore⟩ := dropWhile_cons_split hdrop
    have hgrounded : marker.2 = some .grounded := by simpa using hmarker
    have hall : ∀ line ∈ (markedLines U raw).takeWhile (fun line => line.2 != some .grounded),
        (line.2 != some .extended) = true := by
      rcases hfirst with ⟨line, hline, hmark⟩ | hall
      · -- else the lines before `EXTENDED` end before the marker, and `GROUNDED` is among them
        by_contra hnot
        rw [linesBefore, hsplit, List.takeWhile_append, if_neg ?_] at hline
        · have hno := hbefore line ((List.takeWhile_sublist _).mem hline)
          rw [bne, hmark] at hno
          cases hno
        · intro hlength
          exact hnot (List.takeWhile_eq_self_iff.mp ((List.takeWhile_sublist _).eq_of_length hlength))
      · exact fun line hline => hall line ((List.takeWhile_sublist _).mem hline)
    have hlines : linesBefore U raw =
        (markedLines U raw).takeWhile (fun line => line.2 != some .grounded) ++
          marker :: after.takeWhile fun line => line.2 != some .extended := by
      rw [linesBefore]
      conv_lhs => rw [hsplit]
      rw [List.takeWhile_append_of_pos hall, List.takeWhile_cons_of_pos (by simp [hgrounded])]
    have hmarker' : marker = (marker.1, some .grounded) := by rw [← hgrounded]
    have hended := ended_linesBefore K h
    have hmarked := marked_linesBefore (U := U) raw
    rw [hlines, hmarker'] at hmarked
    have hsub : ((markedLines U raw).takeWhile (fun line => line.2 != some .grounded) ++
        after.takeWhile fun line => line.2 != some .extended).Sublist (linesBefore U raw) := by
      rw [hlines]
      exact (List.Sublist.refl _).append (List.sublist_cons_self _ _)
    have hended' := hended.sublist (hsub.map Prod.fst)
    rw [beforeExtended, stripSentinelLines_flatMap hended (marked_linesBefore raw), hlines]
    simp only [← List.flatMap_append]
    rw [stripSentinelLines_flatMap hended' hmarked.erase]
    simp [unmarked, hgrounded]

theorem flatMap_suffix {lines' : List (Text × Option Sentinel)} (h : lines <:+ lines') :
    lines.flatMap Prod.fst <:+ lines'.flatMap Prod.fst := by
  obtain ⟨before, rfl⟩ := h
  rw [List.flatMap_append]
  exact List.suffix_append _ _

theorem extended_eq (raw : Text) : ∃ text, text <:+ afterExtended U raw ∧
    (splitAnswerSections U raw).2 =
      normalizeAnswerMarkdown U (stripSentinelLines U text) := by
  rw [splitAnswerSections_eq]
  cases hdrop : (markedLines U raw).dropWhile fun line => line.2 != some .grounded with
  | nil =>
    have hstripped : stripSentinelLines U [] = [] := rfl
    have hnormal : normalizeAnswerMarkdown U [] = [] := rfl
    exact ⟨[], List.nil_suffix, by rw [hstripped, hnormal]⟩
  | cons marker after =>
    obtain ⟨hsplit, -, -⟩ := dropWhile_cons_split hdrop
    cases hrest : after.dropWhile fun line => line.2 != some .extended with
    | nil => exact ⟨[], List.nil_suffix, by simp [hrest]⟩
    | cons boundary extended =>
      refine ⟨extended.flatMap Prod.fst, flatMap_suffix ?_, by simp [hrest]⟩
      obtain ⟨hsplit', hboundary, -⟩ := dropWhile_cons_split hrest
      have hlast : (boundary :: extended) <:+
          (markedLines U raw).dropWhile fun line => line.2 != some .extended := by
        rw [hsplit, hsplit', ← List.cons_append, ← List.append_assoc, List.dropWhile_append]
        split
        · exact ⟨[], (List.dropWhile_cons_of_neg (by simp [hboundary])).symm⟩
        · exact List.suffix_append _ _
      obtain ⟨before, hbefore⟩ := hlast
      rw [← hbefore]
      cases before with
      | nil => exact List.suffix_refl _
      | cons line before => exact ⟨before ++ [boundary], by simp⟩

/-- A sentinel line is written without white space in it or behind it; behind `EXTENDED` nothing is
asked. -/
def tidySentinel (U : Unicode) (line : Text) (rest : Bool) : Bool :=
  match sentinelLine U line with
  | none => rest
  | some kind => AnswerStream.unspaced (Text.lstrip (chomp line)) && (kind == .extended || rest)

/-- The lines the stream and the splitter read alike.  `inFence` says whether a line is in a code
fence, `broken` whether it is for the splitter, which sees one opened behind an inline sentinel.  A
sentinel in front of text has no white space in or behind it, and no second one there. -/
def tidyFrom (U : Unicode) (inFence broken : Bool) : List Text → Bool
  | [] => true
  | line :: lines =>
    if togglesFence line then tidyFrom U (!inFence) (!broken) lines
    else
      match inlineSentinel U line with
      | some (sentinel, content) =>
        if inFence then broken && tidyFrom U inFence broken lines
        else
          !broken && AnswerStream.unspaced (Text.lstrip sentinel) &&
            sentinel ++ content == line &&
            (searchSentinel U sentinel == some .extended ||
              (inlineSentinel U content).isNone &&
                tidySentinel U content (tidyFrom U (togglesFence content) broken lines))
      | none =>
        if inFence then tidyFrom U inFence broken lines
        else tidySentinel U line (tidyFrom U inFence broken lines)

def tidy (U : Unicode) (raw : Text) : Bool := tidyFrom U false false (splitLines raw)

/-! ### The stream -/

open AnswerStream (fresh total LineThen)

/-- What marked lines show: those that are no sentinels, up to `EXTENDED`. -/
def shownLines (U : Unicode) (inFence : Bool) (lines : List Text) : Text :=
  (unmarked ((sentinelLinesFrom U inFence lines).takeWhile
    fun line => line.2 != some .extended)).flatMap Prod.fst

theorem shownLines_cons (inFence : Bool) (line : Text) (lines : List Text) :
    shownLines U inFence (line :: lines) =
      match markOf U inFence line with
      | none => line ++ shownLines U (inFence ^^ togglesFence line) lines
      | some .extended => []
      | some _ => shownLines U inFence lines := by
  rw [shownLines, sentinelLinesFrom_cons]
  cases hmark : markOf U inFence line with
  | none => simp [unmarked, shownLines]
  | some kind =>
    cases kind with
    | extended => simp [unmarked]
    | grounded =>
      rw [togglesFence_of_mark hmark]
      simp [unmarked, shownLines]
    | close =>
      rw [togglesFence_of_mark hmark]
      simp [unmarked, shownLines]

theorem total_tidySentinel (K : Casing U) {rest : Text} {lines : List Text} {next : Bool}
    (hline : LineThen line rest) (hinline : inlineSentinel U line = none)
    (htidy : tidySentinel U line next = true)
    (hrest : next = true → total K (fresh (togglesFence line)) rest =
        shownLines U (togglesFence line) lines) :
    total K (fresh false) (line ++ rest) = shownLines U false (line :: lines) := by
  rw [tidySentinel] at htidy
  rw [shownLines_cons]
  cases hkind : sentinelLine U line with
  | none =>
    rw [hkind] at htidy
    have hmark : markOf U false line = none := by rw [markOf, hkind, ite_self]
    rw [AnswerStream.total_line K hline (.inr ⟨hinline, hkind⟩), Bool.false_xor, hrest htidy, hmark]
  | some kind =>
    rw [hkind] at htidy
    have htoggles : togglesFence line = false := by
      rw [← Bool.not_eq_true]
      intro htoggles
      rw [sentinelLine_of_togglesFence K htoggles] at hkind
      cases hkind
    have hmark : markOf U false line = some kind := by
      rw [markOf, htoggles, hkind]
      rfl
    obtain ⟨hunspaced, hnext⟩ := (Bool.and_eq_true _ _).mp htidy
    rw [AnswerStream.total_sentinel K hline hkind hinline hunspaced, hmark]
    rw [htoggles] at hrest
    cases kind with
    | extended => rfl
    | grounded => exact hrest hnext
    | close => exact hrest hnext

theorem markOf_broken (K : Casing U) (hfound : inlineSentinel U line = some (sentinel, content)) :
    ∃ kind,
      searchSentinel U sentinel = some kind ∧
        markOf U false (Text.strip sentinel ++ ['\n']) = some kind := by
  obtain ⟨kind, run, core, gap, hcore, hrun, -, rfl, -⟩ := (inlineSentinel_iff K).mp hfound
  have hspace : ∀ c ∈ run, Text.isSpace c = true := fun c hc => isSpace_of_isBlank (hrun c hc)
  have hkind : sentinelLine U (core ++ ['\n']) = some kind := by
    rw [sentinelLine_newline K, sentinelLine_iff K]
    exact ⟨[], core, [], hcore, List.forall_mem_nil _, List.forall_mem_nil _, by simp⟩
  refine ⟨kind, AnswerStream.searchSentinel_core K hspace hcore, ?_⟩
  rw [strip_core hcore hspace, markOf]
  cases htoggles : togglesFence (core ++ ['\n']) with
  | true =>
    rw [sentinelLine_of_togglesFence K htoggles] at hkind
    cases hkind
  | false => exact hkind

theorem lineThen_inline (K : Casing U) {rest : Text} (hline : LineThen line rest)
    (hfound : inlineSentinel U line = some (sentinel, content)) : LineThen content rest := by
  rcases hline with ⟨body, hbody, rfl⟩ | ⟨-, hbody, hrest⟩
  · rw [inlineSentinel_newline K, Option.map_eq_some_iff] at hfound
    obtain ⟨⟨sentinel', content'⟩, hfound, heq⟩ := hfound
    obtain ⟨rfl, rfl⟩ := Prod.mk.inj heq
    exact .inl ⟨content', (unbroken_inline K hbody hfound).2.2, rfl⟩
  · obtain ⟨-, hne, hcontent⟩ := unbroken_inline K hbody hfound
    exact .inr ⟨hne, hcontent, hrest⟩

/-- What a tidy run of lines shows when it is fed character by character. -/
theorem total_lines (K : Casing U) {lines : List Text} (hended : Ended lines) {broken : Bool}
    (htidy : tidyFrom U inFence broken lines = true) :
    total K (fresh inFence) lines.flatten = shownLines U inFence (brokenLines U broken lines) := by
  induction lines generalizing inFence broken with
  | nil => exact AnswerStream.total_fresh_nil inFence
  | cons line lines ih =>
    have hline : LineThen line lines.flatten := by
      refine hended.1.imp_right fun ⟨hne, hbody, hlast⟩ => ⟨hne, hbody, ?_⟩
      rw [hlast]
      rfl
    -- in a fence, a line is content whatever it looks like
    have hfenced : ∀ {broken : Bool}, togglesFence line = false →
        tidyFrom U true broken lines = true → total K (fresh true) (line ++ lines.flatten) =
          shownLines U true (line :: brokenLines U broken lines) := by
      intro broken hno htidy
      have hmark : markOf U true line = none := by rw [markOf, Bool.or_true]; rfl
      rw [AnswerStream.total_line K hline (.inl rfl), shownLines_cons, hmark, hno, Bool.xor_false,
        ih hended.2 htidy]
    rw [tidyFrom] at htidy
    rw [List.flatten_cons, brokenLines]
    by_cases htoggles : togglesFence line = true
    · rw [if_pos htoggles] at htidy ⊢
      have hplain : inFence = true ∨ inlineSentinel U line = none ∧ sentinelLine U line = none :=
        .inr ⟨inlineSentinel_of_togglesFence K htoggles, sentinelLine_of_togglesFence K htoggles⟩
      have hmark : markOf U inFence line = none := by rw [markOf, htoggles]; rfl
      rw [AnswerStream.total_line K hline hplain, shownLines_cons, hmark, htoggles, Bool.xor_true,
        ih hended.2 htidy]
    · rw [if_neg htoggles] at htidy ⊢
      have hno : togglesFence line = false := (Bool.not_eq_true _).mp htoggles
      cases hfound : inlineSentinel U line with
      | none =>
        have hsame : (match if broken then none else (none : Option (Text × Text)) with
            | some (sentinel, content) =>
              (Text.strip sentinel ++ ['\n']) :: content :: brokenLines U broken lines
            | none => line :: brokenLines U broken lines) = line :: brokenLines U broken lines := by
          cases broken <;> rfl
        rw [hfound] at htidy
        rw [hsame]
        cases inFence with
        | true => exact hfenced hno htidy
        | false =>
          refine total_tidySentinel K hline hfound htidy fun hnext => ?_
          rw [hno]
          exact ih hended.2 hnext
      | some found =>
        obtain ⟨sentinel, content⟩ := found
        rw [hfound] at htidy
        cases inFence with
        | true =>
          obtain ⟨rfl, hnext⟩ := (Bool.and_eq_true _ _).mp htidy
          exact hfenced hno hnext
        | false =>
          obtain ⟨hhead, hrest⟩ := (Bool.and_eq_true _ _).mp htidy
          simp only [Bool.and_eq_true, Bool.not_eq_true', beq_iff_eq] at hhead
          obtain ⟨⟨rfl, hunspaced⟩, hnear⟩ := hhead
          obtain ⟨kind, hkind, hmark⟩ := markOf_broken K hfound
          have hbehind : kind ≠ .extended → total K (fresh false) (content ++ lines.flatten) =
              shownLines U false (content :: brokenLines U false lines) := by
            intro hext
            rw [hkind, Bool.or_eq_true, Bool.and_eq_true, Option.isNone_iff_eq_none] at hrest
            obtain ⟨hinline, hcontent⟩ := hrest.resolve_left fun h =>
              hext (Option.some.inj (beq_iff_eq.mp h))
            exact total_tidySentinel K (lineThen_inline K hline hfound) hinline hcontent
              fun hnext => ih hended.2 hnext
          rw [AnswerStream.total_inline K hline hfound hkind hunspaced hnear]
          show _ = shownLines U false ((Text.strip sentinel ++ ['\n']) :: content ::
            brokenLines U false lines)
          rw [shownLines_cons, hmark]
          cases kind with
          | extended => rfl
          | grounded => exact hbehind (by decide)
          | close => exact hbehind (by decide)

/-- However a tidy output is cut, the stream shows the unmarked lines before the end. -/
theorem streamed_eq (K : Casing U) (hraw : NewlinesOnly raw) (htidy : tidy U raw = true)
    {chunks : List Text} (hchunks : chunks.flatten = raw) :
    streamed K chunks = (unmarked (linesBefore U raw)).flatMap Prod.fst := by
  have hall : streamed K chunks = total K (fresh false) raw := by
    rw [streamed, AnswerStream.feedAll_eq, hchunks]
    rfl
  rw [hall, linesBefore, markedLines_eq K hraw, ← shownLines, ← total_lines K (ended_splitLines hraw)
    htidy, flatten_splitLines hraw]

/-- **The stream agrees with the split.**  However a tidy output is cut, what is shown has no
sentinel outside a code fence and is the text before the first `EXTENDED`, the extended section is
made of text behind it, and where `GROUNDED` comes first, it is the grounded section. -/
theorem stream_agrees (K : Casing U) (raw : Text) (chunks : List Text)
    (hraw : NewlinesOnly raw) (htidy : tidy U raw = true) (hchunks : chunks.flatten = raw) :
    (∀ line ∈ sentinelLines U (streamed K chunks), line.2 = none) ∧
      (Text.strip (streamed K chunks) =
          Text.strip (stripSentinelLines U (beforeExtended U raw)) ∧
        ∃ text, text <:+ afterExtended U raw ∧ (splitAnswerSections U raw).2 =
          normalizeAnswerMarkdown U (stripSentinelLines U text)) ∧
      (groundedFirst U raw = true →
        normalizeAnswerMarkdown U (streamed K chunks) = (splitAnswerSections U raw).1) := by
  have hended := ended_linesBefore K hraw
  have hmarked := marked_linesBefore (U := U) raw
  have hstrip : Text.strip (streamed K chunks) =
      Text.strip (stripSentinelLines U (beforeExtended U raw)) := by
    rw [streamed_eq K hraw htidy hchunks, beforeExtended, strip_unmarked hended hmarked]
  refine ⟨?_, ⟨hstrip, extended_eq raw⟩, fun hfirst => ?_⟩
  · have hkept : Ended ((unmarked (linesBefore U raw)).map Prod.fst) :=
      hended.sublist (List.filter_sublist.map _)
    rw [streamed_eq K hraw htidy hchunks, sentinelLines_flatMap hkept hmarked.unmarked]
    intro line hline
    exact Option.isNone_iff_eq_none.mp (List.mem_filter.mp hline).2
  · rw [normalizeAnswerMarkdown_congr hstrip, grounded_eq K hraw hfirst]

/-! ### On ASCII -/

theorem toLower_eq_iff {c p : Char} (hp : p.toLower = p ∧ p.toUpper.toLower = p ∧
    p.toUpper.toNat + 32 = p.toNat) : c.toLower = p ↔ c = p ∨ c = p.toUpper := by
  constructor
  · intro h
    by_cases hc : c.val ≥ 'A'.val ∧ c.val ≤ 'Z'.val
    · have hlower : c.toLower.val = c.val + ('a'.val - 'A'.val) := congrArg Char.val (dif_pos hc)
      have hbound : c.toNat ≤ 90 := UInt32.le_iff_toNat_le.mp hc.2
      have hshift : (c.val + ('a'.val - 'A'.val)).toNat = c.toNat + 32 := by
        show (c.toNat + 32) % _ = _
        omega
      have hval : (c.val + ('a'.val - 'A'.val)).toNat = p.toNat := by rw [← hlower, h]; rfl
      exact .inr (Char.toNat_inj.mp (by omega))
    · have hlower : c.toLower = c := dif_neg hc
      exact .inl (hlower.symm.trans h)
  · rintro (rfl | rfl)
    · exact hp.1
    · exact hp.2.1

def asciiCasing : Casing ascii where
  upper c := [c.toUpper]
  fold_letter c p hp := by
    have hall : sentinelLetters.all (fun p => decide (p.toLower = p ∧ p.toUpper.toLower = p ∧
        p.toUpper.toNat + 32 = p.toNat)) = true := by decide
    exact toLower_eq_iff (of_decide_eq_true (List.all_eq_true.mp hall p hp))
  upper_letter p hp := by
    have hall : sentinelLetters.all (fun p => decide (p.toUpper.toUpper = p.toUpper)) = true := by
      decide
    exact ⟨rfl, by rw [of_decide_eq_true (List.all_eq_true.mp hall p hp)]⟩

theorem newlinesOnly_of_all {t : Text} (h : t.all (fun c => !isLineBreak c || c == '\n') = true) :
    NewlinesOnly t := by
  intro c hc hbreak
  have hline := List.all_eq_true.mp h c hc
  rw [hbreak] at hline
  simpa using hline

def sectionChunks : List Text :=
  ["<<<GROUNDED>>>Twelve days [C1].\n<<<EXT".toList, "ENDED>>>\nSome say more.".toList]

theorem stream_agrees_sections : normalizeAnswerMarkdown ascii (streamed asciiCasing sectionChunks) =
    (splitAnswerSections ascii sectionChunks.flatten).1 := by
  have hraw : NewlinesOnly sectionChunks.flatten := newlinesOnly_of_all (by decide +kernel)
  exact (stream_agrees asciiCasing _ _ hraw (by decide +kernel) rfl).2.2 (by decide +kernel)

def ungrounded : Text := "Twelve days.\n<<<EXTENDED>>>\nMore text.".toList

/-- The stream stops at the `EXTENDED`; the splitter takes the whole output for grounded. -/
theorem stream_stops_early : NewlinesOnly ungrounded ∧
    normalizeAnswerMarkdown ascii (streamed asciiCasing [ungrounded]) = "Twelve days.".toList ∧
      (splitAnswerSections ascii ungrounded).1 = "Twelve days.\nMore text.".toList := by
  exact ⟨newlinesOnly_of_all (by decide +kernel), by decide +kernel, by decide +kernel⟩

end QnscKb.Ask
