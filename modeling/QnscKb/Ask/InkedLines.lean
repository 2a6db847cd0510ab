import QnscKb.Ask.Streaming
import QnscKb.Lib.Lines

/-!
# Ask — InkedLines

The lines of an output that are not blank, as the passes of `split_answer_sections` read them.
White space at the end of a line changes nothing a pass looks at, and a blank line is no sentinel
and no fence, so each pass over a text is a pass over these lines.
-/

namespace QnscKb.Ask

variable {U : Unicode} {K : Casing U}

/-- The lines of a text that are not blank, without their ends. -/
abbrev inkedLines (t : Text) : List Text := Lines.inked isLineBreak Text.isSpace t

/-! ### Lines that have their ends -/

/-- All lines but the last end in a line break. -/
def Terminated (lines : List Text) : Prop :=
  lines.Pairwise fun line _ => ∃ body c, isLineBreak c = true ∧ line = body ++ [c]

theorem inkedLines_nil : inkedLines [] = [] := by
  simp [inkedLines, Lines.inked]

/-- A break cuts the lines of a text that are not blank in two. -/
theorem inkedLines_append_break {c : Char} (hbreak : isLineBreak c = true) (s t : Text) :
    inkedLines (s ++ c :: t) = inkedLines s ++ inkedLines t :=
  Lines.inked_append_break hbreak s t

variable {lines : List Text}

/-- Lines that end in breaks have their lines one by one. -/
theorem inkedLines_flatten (h : Terminated lines) :
    inkedLines lines.flatten = lines.flatMap inkedLines := by
  induction lines with
  | nil => exact inkedLines_nil
  | cons line lines ih =>
    obtain ⟨hline, hlines⟩ := List.pairwise_cons.mp h
    cases lines with
    | nil => simp
    | cons next lines =>
      obtain ⟨body, c, hbreak, rfl⟩ := hline next (List.mem_cons_self ..)
      have hended : inkedLines (body ++ [c]) = inkedLines body := by
        rw [inkedLines_append_break hbreak, inkedLines_nil, List.append_nil]
      rw [List.flatten_cons, List.append_assoc, List.singleton_append,
        inkedLines_append_break hbreak, ih hlines, ← hended]
      rfl

/-- A text in which no line ends but at its end. -/
def OneLine (line : Text) : Prop :=
  ∃ body run, Unbroken body ∧ (∀ c ∈ run, isLineBreak c = true) ∧ line = body ++ run

variable {body run line t : Text}

/-- A line without its end is what stands before the break. -/
theorem chomp_append_run (hbody : Unbroken body) (hrun : ∀ c ∈ run, isLineBreak c = true) :
    chomp (body ++ run) = body := by
  rw [chomp, List.reverse_append, List.dropWhile_append_of_pos (by simpa using hrun), ← chomp,
    chomp_unbroken hbody]

/-- Breaks at its end change no line of a text that is not blank. -/
theorem inkedLines_append_run (hrun : ∀ c ∈ run, isLineBreak c = true) (t : Text) :
    inkedLines (t ++ run) = inkedLines t := by
  induction run with
  | nil => rw [List.append_nil]
  | cons c run ih =>
    obtain ⟨hbreak, hrest⟩ := List.forall_mem_cons.mp hrun
    have hnone : inkedLines run = [] := by
      have hsplit := ih hrest
      induction run with
      | nil => exact inkedLines_nil
      | cons d run ih =>
        obtain ⟨hd, hrun⟩ := List.forall_mem_cons.mp hrest
        rw [inkedLines_append_break hd] at hsplit
        rw [← List.nil_append (d :: run), inkedLines_append_break hd, inkedLines_nil,
          List.nil_append]
        exact List.append_right_eq_self.mp hsplit
    rw [inkedLines_append_break hbreak, hnone, List.append_nil]

theorem inkedLines_unbroken (h : Unbroken body) :
    inkedLines body = [body].filter (!·.all Text.isSpace) :=
  Lines.inked_unbroken h

theorem oneLine_append_run (hbody : Unbroken body) (hrun : ∀ c ∈ run, isLineBreak c = true) :
    OneLine (body ++ run) :=
  ⟨body, run, hbody, hrun, rfl⟩

/-- A single line is its own line, unless it is blank. -/
theorem OneLine.inked (h : OneLine line) :
    inkedLines line = [chomp line].filter (!·.all Text.isSpace) := by
  obtain ⟨body, run, hbody, hrun, rfl⟩ := h
  rw [inkedLines_append_run hrun, chomp_append_run hbody hrun, inkedLines_unbroken hbody]

/-- The lines of a text are single lines with ends, and are the text. -/
theorem splitLinesFrom_lines (h : Unbroken line) :
    Terminated (splitLinesFrom line t) ∧ (∀ l ∈ splitLinesFrom line t, OneLine l) ∧
      (splitLinesFrom line t).flatten = line ++ t := by
  induction line, t using splitLinesFrom.induct with
  | case1 line hempty => simp [splitLinesFrom, Terminated, List.isEmpty_iff.mp hempty]
  | case2 line hempty =>
    rw [splitLinesFrom, if_neg hempty]
    refine ⟨List.pairwise_singleton _ _, List.forall_mem_singleton.mpr ?_, by simp⟩
    exact ⟨line, [], h, List.forall_mem_nil _, by simp⟩
  | case3 line t ih =>
    obtain ⟨hterminated, hone, hflat⟩ := ih unbroken_nil
    rw [splitLinesFrom]
    refine ⟨List.pairwise_cons.mpr ⟨fun _ _ => ?_, hterminated⟩,
      List.forall_mem_cons.mpr ⟨oneLine_append_run h ?_, hone⟩, ?_⟩
    · exact ⟨line ++ ['\r'], '\n', by decide, by simp⟩
    · exact List.forall_mem_cons.mpr ⟨rfl, List.forall_mem_singleton.mpr rfl⟩
    · rw [List.flatten_cons, hflat]
      simp
  | case4 line c t hreturn hbreak ih =>
    obtain ⟨hterminated, hone, hflat⟩ := ih unbroken_nil
    rw [splitLinesFrom, if_pos hbreak]
    · refine ⟨List.pairwise_cons.mpr ⟨fun _ _ => ⟨line, c, hbreak, rfl⟩, hterminated⟩,
        List.forall_mem_cons.mpr ⟨oneLine_append_run h (by simpa using hbreak), hone⟩, ?_⟩
      rw [List.flatten_cons, hflat]
      simp
    · exact hreturn
  | case5 line c t hreturn hbreak ih =>
    have hline : Unbroken (line ++ [c]) := fun d hd =>
      (List.mem_append.mp hd).elim (h d) fun hlast => by
        rw [List.mem_singleton.mp hlast]
        exact (Bool.not_eq_true _).mp hbreak
    rw [splitLinesFrom, if_neg hbreak]
    · simpa using ih hline
    · exact hreturn

theorem terminated_splitLines (t : Text) : Terminated (splitLines t) :=
  (splitLinesFrom_lines unbroken_nil).1

theorem oneLine_splitLines (h : line ∈ splitLines t) : OneLine line :=
  (splitLinesFrom_lines unbroken_nil).2.1 line h

/-- The lines of a text that are not blank are those of its lines. -/
theorem inkedLines_splitLines (t : Text) : (splitLines t).flatMap inkedLines = inkedLines t := by
  rw [← inkedLines_flatten (terminated_splitLines t), splitLines,
    (splitLinesFrom_lines unbroken_nil).2.2, List.nil_append]

/-! ### What a pass looks at -/

/-- White space at the end of a line does not make or unmake a sentinel. -/
theorem sentinelLine_append_run (K : Casing U) (hrun : ∀ c ∈ run, Text.isSpace c = true)
    (line : Text) : sentinelLine U (line ++ run) = sentinelLine U line := by
  induction run using List.reverseRecOn with
  | nil => rw [List.append_nil]
  | append_singleton run c ih =>
    rw [← List.append_assoc, sentinelLine_concat K (hrun c (by simp)),
      ih fun d hd => hrun d (List.mem_append_left _ hd)]

/-- White space at the end of a line goes to the text behind its sentinel. -/
theorem inlineSentinel_append_run (K : Casing U) (hrun : ∀ c ∈ run, Text.isSpace c = true)
    (line : Text) : inlineSentinel U (line ++ run) =
      (inlineSentinel U line).map fun found => (found.1, found.2 ++ run) := by
  induction run using List.reverseRecOn with
  | nil => simp
  | append_singleton run c ih =>
    rw [← List.append_assoc, inlineSentinel_concat K (hrun c (by simp)),
      ih fun d hd => hrun d (List.mem_append_left _ hd)]
    cases inlineSentinel U line <;> simp

/-- A blank line is no fence. -/
theorem togglesFence_of_blank (h : ∀ c ∈ line, Text.isSpace c = true) :
    togglesFence line = false := by
  rw [togglesFence, Text.strip_nil_iff.mpr h]
  rfl

/-- A blank line is no sentinel. -/
theorem sentinelLine_of_blank (h : ∀ c ∈ line, Text.isSpace c = true) :
    sentinelLine U line = none := by
  have hlstrip : Text.lstrip line = [] := List.dropWhile_eq_nil_iff.mpr h
  rw [sentinelLine, hlstrip]
  rfl

theorem inlineSentinel_of_blank (K : Casing U) (h : ∀ c ∈ line, Text.isSpace c = true) :
    inlineSentinel U line = none := by
  rw [← Option.not_isSome_iff_eq_none, Option.isSome_iff_exists]
  rintro ⟨⟨sentinel, content⟩, hfound⟩
  obtain ⟨kind, run, core, gap, -, -, -, rfl, rfl, -, c, t, rfl, hc⟩ :=
    (inlineSentinel_iff K).mp hfound
  rw [h c (by simp)] at hc
  cases hc

/-- A single line is blank, or a line with its end. -/
theorem OneLine.cases (h : OneLine line) :
    (∀ c ∈ line, Text.isSpace c = true) ∧ inkedLines line = [] ∨
      ∃ body run, Unbroken body ∧ (∀ c ∈ run, isLineBreak c = true) ∧ line = body ++ run ∧
        inkedLines line = [body] := by
  obtain ⟨body, run, hbody, hrun, rfl⟩ := h
  have hinked := OneLine.inked ⟨body, run, hbody, hrun, rfl⟩
  rw [chomp_append_run hbody hrun] at hinked
  by_cases hblank : body.all Text.isSpace = true
  · refine .inl ⟨fun c hc => ?_, by rw [hinked, List.filter_singleton, hblank]; rfl⟩
    exact (List.mem_append.mp hc).elim (List.all_eq_true.mp hblank c)
      fun hc => isSpace_of_isLineBreak (hrun c hc)
  · exact .inr ⟨body, run, hbody, hrun, rfl, by
      rw [hinked, List.filter_singleton, (Bool.not_eq_true _).mp hblank]; rfl⟩

/-- **The marks** of the lines are those of the lines that are not blank. -/
theorem sentinelLinesFrom_inked (K : Casing U) (h : ∀ line ∈ lines, OneLine line) (inFence : Bool) :
    (sentinelLinesFrom U inFence lines).flatMap
        (fun line => (inkedLines line.1).map fun body => (body, line.2)) =
      sentinelLinesFrom U inFence (lines.flatMap inkedLines) := by
  induction lines generalizing inFence with
  | nil => rfl
  | cons line lines ih =>
    obtain ⟨hline, hlines⟩ := List.forall_mem_cons.mp h
    rw [sentinelLinesFrom_cons, List.flatMap_cons, List.flatMap_cons, ih hlines]
    rcases hline.cases with ⟨hblank, hinked⟩ | ⟨body, run, -, hrun, rfl, hinked⟩
    · rw [hinked, togglesFence_of_blank hblank, Bool.xor_false]
      rfl
    · have hspace : ∀ c ∈ run, Text.isSpace c = true := fun c hc =>
      isSpace_of_isLineBreak (hrun c hc)
      rw [hinked, List.singleton_append, sentinelLinesFrom_cons, togglesFence_append_run hspace,
        markOf, togglesFence_append_run hspace, sentinelLine_append_run K hspace, ← markOf]
      rfl

/-! ### Inline sentinels -/

/-- `_break_inline_sentinels` on the lines that are not blank. -/
def broken (U : Unicode) (inFence : Bool) : List Text → List Text
  | [] => []
  | line :: lines =>
    if togglesFence line then line :: broken U (!inFence) lines
    else
      match if inFence then none else inlineSentinel U line with
      | some (sentinel, content) =>
        Text.strip sentinel :: content :: broken U inFence lines
      | none => line :: broken U inFence lines

/-- An inline sentinel that is broken off is a line, and what stood behind it another. -/
theorem inkedLines_inline (K : Casing U) {sentinel content : Text} (hbody : Unbroken body)
    (hrun : ∀ c ∈ run, isLineBreak c = true)
    (hfound : inlineSentinel U body = some (sentinel, content)) :
    inkedLines (Text.strip sentinel ++ ['\n']) = [Text.strip sentinel] ∧
      inkedLines (content ++ run) = [content] := by
  obtain ⟨hsentinel, -, hcontent⟩ := unbroken_inline K hbody hfound
  obtain ⟨kind, before, core, gap, hcore, hbefore, -, rfl, -, -, c, t, rfl, hc⟩ :=
    (inlineSentinel_iff K).mp hfound
  rw [inkedLines_append_run (List.forall_mem_singleton.mpr rfl), inkedLines_append_run hrun,
    inkedLines_unbroken hsentinel, inkedLines_unbroken hcontent,
    strip_core hcore fun d hd => isSpace_of_isBlank (hbefore d hd)]
  obtain ⟨t', rfl⟩ := hcore.first
  have hangle : Text.isSpace '<' = false := by decide
  simp [hc, hangle]

/-- Breaking inline sentinels off is done on the lines that are not blank. -/
theorem inkedLines_brokenLines (K : Casing U) (h : ∀ line ∈ lines, OneLine line) (inFence : Bool) :
    (brokenLines U inFence lines).flatMap inkedLines =
      broken U inFence (lines.flatMap inkedLines) := by
  induction lines generalizing inFence with
  | nil => rfl
  | cons line lines ih =>
    obtain ⟨hline, hlines⟩ := List.forall_mem_cons.mp h
    rw [brokenLines, List.flatMap_cons]
    rcases hline.cases with ⟨hblank, hinked⟩ | ⟨body, run, hbody, hrun, rfl, hinked⟩
    · rw [if_neg (by simp [togglesFence_of_blank hblank]), inlineSentinel_of_blank K hblank, ite_self,
        hinked, List.nil_append]
      show (line :: brokenLines U inFence lines).flatMap inkedLines = _
      rw [List.flatMap_cons, hinked, List.nil_append, ih hlines]
    · have hspace : ∀ c ∈ run, Text.isSpace c = true := fun c hc =>
      isSpace_of_isLineBreak (hrun c hc)
      rw [hinked, List.singleton_append, broken, togglesFence_append_run hspace,
        inlineSentinel_append_run K hspace]
      by_cases htoggles : togglesFence body = true
      · rw [if_pos htoggles, if_pos htoggles, List.flatMap_cons, hinked, ih hlines]
        rfl
      · rw [if_neg htoggles, if_neg htoggles]
        cases inFence with
        | true =>
          show ((body ++ run) :: brokenLines U true lines).flatMap inkedLines = _
          rw [List.flatMap_cons, hinked, ih hlines]
          rfl
        | false =>
          cases hfound : inlineSentinel U body with
          | none =>
            show ((body ++ run) :: brokenLines U false lines).flatMap inkedLines = _
            rw [List.flatMap_cons, hinked, ih hlines]
            rfl
          | some found =>
            obtain ⟨sentinel, content⟩ := found
            obtain ⟨hsentinel, hcontent⟩ := inkedLines_inline K hbody hrun hfound
            show ((Text.strip sentinel ++ ['\n']) :: (content ++ run) ::
              brokenLines U false lines).flatMap inkedLines = _
            rw [List.flatMap_cons, List.flatMap_cons, hsentinel, hcontent, ih hlines]
            rfl

theorem terminated_brokenLines (K : Casing U) (h : Terminated lines) (inFence : Bool) :
    Terminated (brokenLines U inFence lines) := by
  induction lines generalizing inFence with
  | nil => exact List.Pairwise.nil
  | cons line lines ih =>
    obtain ⟨hline, hlines⟩ := List.pairwise_cons.mp h
    -- what follows a line shows that it ends
    have hends : ∀ inFence, ∀ next ∈ brokenLines U inFence lines,
        ∃ body c, isLineBreak c = true ∧ line = body ++ [c] := by
      intro inFence next hnext
      cases lines with
      | nil => cases hnext
      | cons after lines => exact hline after (List.mem_cons_self ..)
    rw [brokenLines]
    split_ifs with htoggles hfence
    · exact List.pairwise_cons.mpr ⟨hends _, ih hlines _⟩
    · exact List.pairwise_cons.mpr ⟨hends _, ih hlines _⟩
    · cases hfound : inlineSentinel U line with
      | none => exact List.pairwise_cons.mpr ⟨hends _, ih hlines _⟩
      | some found =>
        obtain ⟨sentinel, content⟩ := found
        refine List.pairwise_cons.mpr ⟨fun _ _ => ⟨_, '\n', by decide, rfl⟩,
          List.pairwise_cons.mpr ⟨fun next hnext => ?_, ih hlines _⟩⟩
        obtain ⟨body, c, hbreak, rfl⟩ := hends _ next hnext
        obtain ⟨kind, run, core, gap, -, -, -, rfl, hsplit, -, d, t, rfl, -⟩ :=
          (inlineSentinel_iff K).mp hfound
        rcases List.eq_nil_or_concat t with rfl | ⟨t, e, rfl⟩
        · rw [← List.append_assoc] at hsplit
          obtain rfl := (List.cons.inj (List.append_inj' hsplit rfl).2).1
          exact ⟨[], c, hbreak, rfl⟩
        · have hlast : body ++ [c] = (run ++ core ++ (gap ++ d :: t)) ++ [e] := by
            rw [hsplit]
            simp
          obtain rfl := (List.cons.inj (List.append_inj' hlast rfl).2).1
          exact ⟨d :: t, c, hbreak, by simp⟩

/-- The text with its inline sentinels broken off. -/
theorem inkedLines_breakInline (K : Casing U) (t : Text) :
    inkedLines (breakInlineSentinels U t) = broken U false (inkedLines t) := by
  rw [breakInlineSentinels, breakInlineFrom_eq,
    inkedLines_flatten (terminated_brokenLines K (terminated_splitLines t) false),
    inkedLines_brokenLines K (fun _ => oneLine_splitLines), inkedLines_splitLines]

/-! ### Sentinel lines -/

/-- The marks of a text are those of its lines that are not blank. -/
theorem sentinelLines_inked (K : Casing U) (t : Text) :
    (sentinelLines U t).flatMap (fun line => (inkedLines line.1).map fun body => (body, line.2)) =
      sentinelLinesFrom U false (inkedLines t) := by
  rw [sentinelLines, sentinelLinesFrom_inked K fun _ => oneLine_splitLines, inkedLines_splitLines]

theorem oneLine_sentinelLines {line : Text × Option Sentinel} (h : line ∈ sentinelLines U t) :
    OneLine line.1 := by
  refine oneLine_splitLines (t := t) ?_
  rw [← sentinelLinesFrom_fst (U := U) false (splitLines t)]
  exact List.mem_map_of_mem h

theorem unmarked_append (a b : List (Text × Option Sentinel)) :
    unmarked (a ++ b) = unmarked a ++ unmarked b :=
  List.filter_append ..

theorem OneLine.chomp_unbroken (h : OneLine line) : Unbroken (chomp line) := by
  obtain ⟨body, run, hbody, hrun, rfl⟩ := h
  rwa [chomp_append_run hbody hrun]

theorem unbroken_stripped (h : line ∈ (unmarked (sentinelLines U t)).map fun line => chomp line.1) :
    Unbroken line := by
  obtain ⟨line, hline, rfl⟩ := List.mem_map.mp h
  exact (oneLine_sentinelLines (List.mem_filter.mp hline).1).chomp_unbroken

/-- A text without its sentinel lines has newlines for breaks. -/
theorem newlinesOnly_stripSentinels (t : Text) : NewlinesOnly (stripSentinelLines U t) := by
  intro c hc hbreak
  rcases Text.mem_join hc with hnewline | ⟨line, hline, hc⟩
  · exact List.mem_singleton.mp hnewline
  · rw [unbroken_stripped hline c hc] at hbreak
    cases hbreak

/-- The text without its sentinel lines. -/
theorem inkedLines_stripSentinels (K : Casing U) (t : Text) :
    inkedLines (stripSentinelLines U t) =
      (unmarked (sentinelLinesFrom U false (inkedLines t))).map Prod.fst := by
  have hjoined : inkedLines (stripSentinelLines U t) =
      ((unmarked (sentinelLines U t)).map fun line => chomp line.1).filter
        (!·.all Text.isSpace) :=
    Lines.inked_intercalate (by decide) fun _ => unbroken_stripped
  have hlines : ∀ line ∈ sentinelLines U t, OneLine line.1 := fun _ => oneLine_sentinelLines
  rw [hjoined, ← sentinelLines_inked K]
  generalize sentinelLines U t = lines at hlines
  induction lines with
  | nil => rfl
  | cons line lines ih =>
    obtain ⟨hline, hrest⟩ := List.forall_mem_cons.mp hlines
    obtain ⟨line, mark⟩ := line
    rw [List.flatMap_cons, hline.inked, unmarked_append, List.map_append, ← ih hrest]
    cases mark with
    | none => cases hblank : (chomp line).all Text.isSpace <;> simp [unmarked, hblank]
    | some kind => cases hblank : (chomp line).all Text.isSpace <;> simp [unmarked, hblank]

end QnscKb.Ask
