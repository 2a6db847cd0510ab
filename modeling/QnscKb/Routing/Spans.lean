import QnscKb.Chunking.Lossless
import QnscKb.Lib.Words
import QnscKb.Routing.Partition

/-!
# Routing — Spans

Where a candidate of a split document is said to stand in it: `source_start` and `source_end`, which
`_major_sections` finds by searching the document for the text of a section, put together again from
its lines.
-/

namespace QnscKb.Routing

open Ask (Python chomp isLineBreak)
open Ink (ink)
open Spans
open Text (isSpace strip lstrip rstrip words)

/-! ### Lines as they stand -/

/-- A text without a break. -/
def Unbroken (line : Text) : Prop := ∀ c ∈ line, isLineBreak c = false

/-- A line with its end. -/
def Ended (line : Text) : Prop :=
  ∃ l stop, line = l ++ stop ∧ Unbroken l ∧
    (stop = ['\r', '\n'] ∨ ∃ c, stop = [c] ∧ isLineBreak c = true)

/-- Lines of a text: all have an end, but perhaps the last. -/
structure Lined (lines : List Text) : Prop where
  ended : ∀ line ∈ lines.dropLast, Ended line
  each : ∀ line ∈ lines, Ended line ∨ Unbroken line

variable {line t stop text gap markdown : Text} {lines current : List Text}

theorem lined_cons (hline : Ended line) (h : Lined lines) :
    Lined (line :: lines) where
  ended := by
    cases lines with
    | nil => exact fun _ hin => absurd hin List.not_mem_nil
    | cons next lines =>
      exact List.forall_mem_cons.mpr ⟨hline, h.ended⟩
  each := List.forall_mem_cons.mpr ⟨.inl hline, h.each⟩

theorem Lined.tail (h : Lined (line :: lines)) : Lined lines where
  ended next hnext := by
    refine h.ended next ?_
    cases lines with
    | nil => exact absurd hnext List.not_mem_nil
    | cons first lines =>
      exact List.mem_cons_of_mem line hnext
  each next hnext := h.each next (List.mem_cons_of_mem line hnext)

theorem Lined.front {first second : List Text} (h : Lined (first ++ second)) : Lined first where
  ended line hline := by
    refine h.ended line ?_
    rcases List.eq_nil_or_concat' second with rfl | ⟨init, last, rfl⟩
    · rwa [List.append_nil]
    · rw [← List.append_assoc, List.dropLast_concat]
      exact List.mem_append_left init ((List.dropLast_sublist first).subset hline)
  each line hline := h.each line (List.mem_append_left second hline)

theorem Lined.back {first second : List Text} (h : Lined (first ++ second)) : Lined second := by
  induction first with
  | nil => exact h
  | cons line first ih => exact ih h.tail

theorem lined_splitLinesFrom (h : Unbroken line) : Lined (Ask.splitLinesFrom line t) := by
  fun_induction Ask.splitLinesFrom line t with
  | case1 line hempty => exact ⟨fun _ hin => absurd hin List.not_mem_nil, by simp⟩
  | case2 line hempty =>
    exact ⟨fun _ hin => absurd hin List.not_mem_nil, by simpa using .inr h⟩
  | case3 line t ih =>
    exact lined_cons ⟨line, ['\r', '\n'], rfl, h, .inl rfl⟩ (ih (List.forall_mem_nil _))
  | case4 line c t _ hbreak ih =>
    exact lined_cons ⟨line, [c], rfl, h, .inr ⟨c, rfl, hbreak⟩⟩ (ih (List.forall_mem_nil _))
  | case5 line c t _ hbreak ih =>
    refine ih fun d hd => ?_
    rcases List.mem_append.mp hd with hd | hd
    · exact h d hd
    · rw [List.mem_singleton.mp hd]
      simpa using hbreak

theorem chomp_append (hline : Unbroken line) (hstop : ∀ c ∈ stop, isLineBreak c = true) :
    chomp (line ++ stop) = line := by
  rw [chomp, List.reverse_append, List.dropWhile_append_of_pos (by simpa using hstop)]
  exact Ask.chomp_unbroken hline

theorem crlf_breaks : ∀ c ∈ ['\r', '\n'], isLineBreak c = true :=
  List.forall_mem_cons.mpr
    ⟨by decide, List.forall_mem_cons.mpr ⟨by decide, List.forall_mem_nil _⟩⟩

theorem Ended.cut (h : Ended line) : ∃ stop, line = chomp line ++ stop ∧
    Unbroken (chomp line) ∧ (∀ c ∈ stop, isLineBreak c = true) ∧ stop ≠ [] ∧
      ((∀ c ∈ stop, c = '\n') → stop = ['\n']) := by
  obtain ⟨l, stop, rfl, hline, hstop⟩ := h
  have hbreaks : ∀ c ∈ stop, isLineBreak c = true := by
    rcases hstop with rfl | ⟨c, rfl, hc⟩
    · exact crlf_breaks
    · simpa using hc
  refine ⟨stop, ?_, ?_, hbreaks, ?_, fun hnewlines => ?_⟩
  · rw [chomp_append hline hbreaks]
  · rw [chomp_append hline hbreaks]
    exact hline
  · rcases hstop with rfl | ⟨c, rfl, -⟩ <;> exact List.cons_ne_nil _ _
  · rcases hstop with rfl | ⟨c, rfl, -⟩
    · exact absurd (hnewlines '\r' (by simp)) (by decide)
    · rw [hnewlines c (by simp)]

theorem line_cut (h : Ended line ∨ Unbroken line) : ∃ stop,
    line = chomp line ++ stop ∧ Unbroken (chomp line) ∧ ∀ c ∈ stop, isLineBreak c = true := by
  rcases h with h | h
  · obtain ⟨stop, hline, hunbroken, hstop, -⟩ := h.cut
    exact ⟨stop, hline, hunbroken, hstop⟩
  · rw [Ask.chomp_unbroken h]
    exact ⟨[], (List.append_nil line).symm, h, List.forall_mem_nil _⟩

theorem blank_stop (h : ∀ c ∈ stop, isLineBreak c = true) :
    ∀ c ∈ stop, isSpace c = true := fun c hc => Ask.isSpace_of_isLineBreak (h c hc)

theorem newline_blank : ∀ c ∈ ['\n'], isSpace c = true :=
  List.forall_mem_cons.mpr ⟨by decide, List.forall_mem_nil _⟩

theorem paragraph_blank : ∀ c ∈ "\n\n".toList, isSpace c = true :=
  List.forall_mem_cons.mpr ⟨by decide, newline_blank⟩

/-! ### A section put together again -/

def terminated (lines : List Text) : Text := lines.flatMap (· ++ ['\n'])

theorem joinLines_concat (lines : List Text) (line : Text) :
    joinLines (lines ++ [line]) = terminated lines ++ line := by
  induction lines with
  | nil => simp [joinLines, Text.join, terminated]
  | cons first lines ih =>
    obtain ⟨next, rest, hrest⟩ : ∃ next rest, lines ++ [line] = next :: rest :=
      List.exists_cons_of_ne_nil (List.concat_ne_nil line lines)
    rw [List.cons_append, hrest, joinLines, Text.join_cons_cons, ← joinLines, ← hrest, ih,
      terminated, terminated, List.flatMap_cons]
    simp

theorem rstrip_terminated (lines : List Text) :
    rstrip (terminated lines) = rstrip (joinLines lines) := by
  rcases List.eq_nil_or_concat' lines with rfl | ⟨init, last, rfl⟩
  · rfl
  · rw [joinLines_concat, terminated, List.flatMap_append, List.flatMap_singleton,
      ← List.append_assoc, Text.rstrip_append_run newline_blank, terminated]

theorem terminated_chomp (h : ∀ line ∈ lines, Ended line)
    (hnewlines : ∀ c ∈ lines.flatten, isLineBreak c = true → c = '\n') :
    terminated (lines.map chomp) = lines.flatten := by
  induction lines with
  | nil => rfl
  | cons line lines ih =>
    obtain ⟨hline, hlines⟩ := List.forall_mem_cons.mp h
    obtain ⟨stop, heq, -, hbreaks, -, hnewline⟩ := hline.cut
    have hstop : stop = ['\n'] := hnewline fun c hc =>
      hnewlines c (List.mem_append_left _ (heq ▸ List.mem_append_right _ hc)) (hbreaks c hc)
    have hrest := ih hlines fun c hc => hnewlines c (List.mem_append_right _ hc)
    rw [terminated] at hrest
    rw [List.map_cons, terminated, List.flatMap_cons, hrest, List.flatten_cons, ← hstop, ← heq]

theorem rstrip_joinLines (h : Lined lines)
    (hnewlines : ∀ c ∈ rstrip lines.flatten, isLineBreak c = true → c = '\n') :
    rstrip (joinLines (lines.map chomp)) = rstrip lines.flatten := by
  induction lines using List.reverseRecOn with
  | nil => rfl
  | append_singleton lines line ih =>
    obtain ⟨stop, hline, -, hstop⟩ := line_cut (h.each line (by simp))
    have hflatten : (lines ++ [line]).flatten = lines.flatten ++ (chomp line ++ stop) := by
      rw [List.flatten_append, List.flatten_singleton, ← hline]
    rw [hflatten] at hnewlines ⊢
    rw [List.map_append, List.map_singleton, joinLines_concat]
    by_cases hblank : ∀ c ∈ chomp line, isSpace c = true
    · -- a blank last line counts for nothing on both sides
      rw [Text.rstrip_append_run
        (List.forall_mem_append.mpr ⟨hblank, blank_stop hstop⟩)] at hnewlines ⊢
      rw [Text.rstrip_append_run hblank, rstrip_terminated, ih h.front hnewlines]
    · have hlast : rstrip (lines.flatten ++ (chomp line ++ stop)) =
          lines.flatten ++ rstrip (chomp line) := by
        rw [← List.append_assoc, Text.rstrip_append_run (blank_stop hstop),
          Text.rstrip_append hblank]
      rw [hlast] at hnewlines ⊢
      have hended : ∀ l ∈ lines, Ended l := fun l hl =>
        h.ended l (by rwa [List.dropLast_concat])
      rw [Text.rstrip_append hblank, terminated_chomp hended fun c hc =>
        hnewlines c (List.mem_append_left _ hc)]

theorem joinLines_cons (line : Text) (lines : List Text) :
    ∃ rest, joinLines (line :: lines) = line ++ rest ∧
      ((∀ c ∈ line, isSpace c = true) →
        strip (joinLines (line :: lines)) = strip (joinLines lines)) ∧
        ∀ other, joinLines (other :: lines) = other ++ rest := by
  cases lines with
  | nil =>
    refine ⟨[], by simp [joinLines, Text.join], fun hblank => ?_, fun other => ?_⟩
    · rw [joinLines, Text.join, List.intercalate_singleton, Text.strip_nil_iff.mpr hblank]
      rfl
    · simp [joinLines, Text.join]
  | cons next lines =>
    refine ⟨['\n'] ++ joinLines (next :: lines), Text.join_cons_cons _ _ _ _, fun hblank => ?_,
      fun other => Text.join_cons_cons _ _ _ _⟩
    rw [joinLines, Text.join_cons_cons, Text.strip_run_append hblank,
      Text.strip_run_append newline_blank, joinLines]

theorem Lined.shorten {front : Text} (h : Lined (line :: lines)) (hline : line = chomp line ++ stop)
    (hcut : chomp line = front ++ text) : Lined ((text ++ stop) :: lines) := by
  have hend : Ended line → Ended (text ++ stop) := by
    rintro ⟨l, stop', rfl, hunbroken, hstop⟩
    have hbreaks : ∀ c ∈ stop', isLineBreak c = true := by
      rcases hstop with rfl | ⟨c, rfl, hc⟩
      · exact crlf_breaks
      · simpa using hc
    rw [chomp_append hunbroken hbreaks] at hline hcut
    obtain rfl := List.append_cancel_left hline
    rw [hcut] at hunbroken
    exact ⟨text, stop', rfl, fun c hc => hunbroken c (List.mem_append_right front hc), hstop⟩
  have hfirst : Ended line ∨ Unbroken line := h.each line List.mem_cons_self
  refine ⟨?_, List.forall_mem_cons.mpr ⟨hfirst.imp hend fun hunbroken c hc => ?_, h.tail.each⟩⟩
  · cases lines with
    | nil => exact fun _ hin => absurd hin List.not_mem_nil
    | cons next lines =>
      have hended := h.ended
      obtain ⟨hline', hrest⟩ := List.forall_mem_cons.mp hended
      exact List.forall_mem_cons.mpr ⟨hend hline', hrest⟩
  · refine hunbroken c ?_
    rw [hline, hcut, List.append_assoc]
    exact List.mem_append_right front hc

theorem strip_of_head (h : ∀ c ∈ t.head?, isSpace c = false) : strip t = rstrip t := by
  rw [strip, lstrip, Text.dropWhile_of_head h]

/-- **A section put together again** is the text it was read from, when the breaks inside it are
newlines. -/
theorem strip_joinLines (h : Lined lines)
    (hnewlines : ∀ c ∈ strip lines.flatten, isLineBreak c = true → c = '\n') :
    strip (joinLines (lines.map chomp)) = strip lines.flatten := by
  induction lines with
  | nil => rfl
  | cons line lines ih =>
    obtain ⟨stop, hline, hunbroken, hstop⟩ := line_cut (h.each line List.mem_cons_self)
    obtain ⟨rest, hjoin, hskip, hother⟩ := joinLines_cons (chomp line) (lines.map chomp)
    rw [List.map_cons]
    by_cases hblank : ∀ c ∈ chomp line, isSpace c = true
    · have hspace : ∀ c ∈ line, isSpace c = true :=
        hline ▸ List.forall_mem_append.mpr ⟨hblank, blank_stop hstop⟩
      rw [List.flatten_cons, Text.strip_run_append hspace] at hnewlines ⊢
      rw [hskip hblank, ih h.tail hnewlines]
    · -- what is left of the first line without the white space it opens with is stripped no further
      obtain ⟨front, hfront, hcut, hhead⟩ := Text.dropWhile_split isSpace (chomp line)
      generalize (chomp line).dropWhile isSpace = text at hcut hhead
      have hne : text ≠ [] := by
        rintro rfl
        rw [List.append_nil] at hcut
        exact hblank (hcut ▸ hfront)
      have hopen : ∀ after : Text, strip (front ++ (text ++ after)) = rstrip (text ++ after) := by
        intro after
        rw [Text.strip_run_append hfront, strip_of_head]
        rwa [List.head?_append_of_ne_nil _ hne]
      have hlined := h.shorten hline hcut
      have htext : chomp (text ++ stop) = text :=
        chomp_append (fun c hc => hunbroken c (hcut ▸ List.mem_append_right front hc)) hstop
      have hflatten : (line :: lines).flatten = front ++ (text ++ (stop ++ lines.flatten)) := by
        rw [hline, hcut]
        simp
      have hlast := rstrip_joinLines hlined
      rw [List.flatten_cons, List.append_assoc, List.map_cons, htext, hother text] at hlast
      rw [hflatten, hopen] at hnewlines ⊢
      rw [hjoin, hcut, List.append_assoc, hopen, hlast hnewlines]

/-! ### The sections as they stand -/

def bodyOf (lines : List Text) : Text := strip (joinLines (lines.map chomp))

/-- The lines of the sections with their ends, as `_major_sections` takes them together. -/
def lineGroups (current : List Text) : List Text → List (List Text)
  | [] => if (bodyOf current).isEmpty then [] else [current]
  | line :: lines =>
    if isMajor (chomp line) && !(bodyOf current).isEmpty &&
        current.any fun l => isMajor (chomp l) then
      current :: lineGroups [line] lines
    else lineGroups (current ++ [line]) lines

/-- The texts of the sections, as the document has them. -/
def sectionTexts (markdown : Text) : List Text :=
  (lineGroups [] (Ask.splitLines markdown)).map fun lines => strip lines.flatten

theorem bodiesFrom_groups (current lines : List Text) :
    bodiesFrom (current.map chomp) (lines.map chomp) = (lineGroups current lines).map bodyOf := by
  induction lines generalizing current with
  | nil =>
    rw [List.map_nil, bodiesFrom, lineGroups, bodyOf]
    split <;> rfl
  | cons line lines ih =>
    have hmore := ih (current ++ [line])
    have hfirst := ih [line]
    rw [List.map_append, List.map_singleton] at hmore
    rw [List.map_singleton] at hfirst
    rw [List.map_cons, bodiesFrom, lineGroups, List.any_map, hmore, hfirst]
    rw [apply_ite (List.map bodyOf)]
    rfl

/-- Texts that stand in a text one after the other: none is empty or opens with white space, which
stands before each. -/
inductive Standing : List Text → Text → Prop
  | last (t : Text) : Standing [] t
  | next {gap text rest : Text} {texts : List Text} (hgap : ∀ c ∈ gap, isSpace c = true)
      (hne : text ≠ []) (hhead : ∀ c ∈ text.head?, isSpace c = false)
      (hnext : texts ≠ [] → ∃ c ∈ rest.head?, isSpace c = true) (htail : Standing texts rest) :
      Standing (text :: texts) (gap ++ (text ++ rest))

theorem Standing.prepend {texts : List Text} (h : Standing texts t)
    (hgap : ∀ c ∈ gap, isSpace c = true) : Standing texts (gap ++ t) := by
  cases h with
  | last => exact .last _
  | next hgap' hne hhead hnext htail =>
    rw [← List.append_assoc]
    exact .next (List.forall_mem_append.mpr ⟨hgap, hgap'⟩) hne hhead hnext htail

theorem bodyOf_blank_iff : bodyOf lines = [] ↔ ∀ c ∈ lines.flatten, isSpace c = true := by
  have hink : ink isSpace (joinLines (lines.map chomp)) = ink isSpace lines.flatten := by
    rw [joinLines, Text.join, Ink.ink_intercalate newline_blank, Ink.ink_flatten, List.flatMap_map]
    exact congrArg (List.flatMap · lines) (funext Chunking.ink_chomp)
  rw [bodyOf, Text.strip_nil_iff, ← Ink.ink_eq_nil_iff, hink, Ink.ink_eq_nil_iff]

theorem stops_blank {tail : Text} (h : Lined (current ++ line :: lines))
    (hflatten : current.flatten = gap ++ (strip current.flatten ++ tail))
    (hbody : strip current.flatten ≠ []) : tail ≠ [] := by
  rintro rfl
  rcases List.eq_nil_or_concat' current with rfl | ⟨init, l, rfl⟩
  · exact hbody rfl
  obtain ⟨stop, hl, -, hbreaks, hstop, -⟩ := (h.ended l (by simp)).cut
  obtain ⟨first, c, rfl⟩ := (List.eq_nil_or_concat' stop).resolve_left hstop
  have hlast : (strip (init ++ [l]).flatten).getLast? = some c := by
    have hends := congrArg List.getLast? hflatten
    rw [List.append_nil, List.getLast?_append_of_ne_nil _ hbody, List.flatten_append,
      List.flatten_singleton, hl, ← List.append_assoc, ← List.append_assoc,
      List.getLast?_concat] at hends
    rw [List.flatten_append, List.flatten_singleton, hl, ← List.append_assoc, ← List.append_assoc]
    exact hends.symm
  have hink := Text.strip_last _ c hlast
  rw [Ask.isSpace_of_isLineBreak (hbreaks c (by simp))] at hink
  cases hink

theorem standing_groups (h : Lined (current ++ lines)) :
    Standing ((lineGroups current lines).map fun group => strip group.flatten)
      (current ++ lines).flatten := by
  induction lines generalizing current with
  | nil =>
    obtain ⟨gap, tail, hflatten, hgap, -⟩ := Text.strip_split current.flatten
    rw [lineGroups, List.append_nil]
    split
    · exact .last _
    · next hsome =>
      rw [List.isEmpty_iff, bodyOf_blank_iff, ← Text.strip_nil_iff] at hsome
      have hstanding := Standing.next hgap hsome (Text.strip_head _)
        (fun hnil => absurd rfl hnil) (.last tail)
      rwa [← hflatten] at hstanding
  | cons line lines ih =>
    rw [lineGroups]
    split
    · next hboundary =>
      obtain ⟨gap, tail, hflatten, hgap, htail⟩ := Text.strip_split current.flatten
      rw [Bool.and_eq_true, Bool.and_eq_true, Bool.not_eq_true', List.isEmpty_eq_false_iff, Ne,
        bodyOf_blank_iff, ← Text.strip_nil_iff] at hboundary
      have hsome := hboundary.1.2
      obtain ⟨c, rest, rfl⟩ := List.exists_cons_of_ne_nil (stops_blank h hflatten hsome)
      have hline : Lined ([line] ++ lines) := h.back
      have hrest := (ih hline).prepend htail
      have hstanding := Standing.next hgap hsome (Text.strip_head _)
        (fun _ => ⟨c, rfl, htail c List.mem_cons_self⟩) hrest
      rw [List.map_cons, List.flatten_append]
      convert hstanding using 1
      conv_lhs => rw [hflatten]
      simp
    · have hline : Lined ((current ++ [line]) ++ lines) := by simpa using h
      simpa using ih hline

/-! ### The search -/

theorem indexOf_gap {rest : Text} (hgap : ∀ c ∈ gap, isSpace c = true) (hne : text ≠ [])
    (hhead : ∀ c ∈ text.head?, isSpace c = false) :
    SourceEdit.indexOf text (gap ++ (text ++ rest)) = some gap.length := by
  obtain ⟨d, text, rfl⟩ := List.exists_cons_of_ne_nil hne
  induction gap with
  | nil =>
    have hprefix : (d :: text).isPrefixOf (d :: (text ++ rest)) = true :=
      List.isPrefixOf_iff_prefix.mpr (List.prefix_append (d :: text) rest)
    rw [List.nil_append, List.cons_append, SourceEdit.indexOf, if_pos hprefix]
    rfl
  | cons c gap ih =>
    obtain ⟨hc, hrest⟩ := List.forall_mem_cons.mp hgap
    have hne' : d ≠ c := by
      rintro rfl
      exact absurd (hhead d rfl) (by rw [hc]; exact Bool.noConfusion)
    have hprefix : ((d :: text).isPrefixOf (c :: (gap ++ (d :: text ++ rest)))) = false := by
      rw [List.isPrefixOf, beq_eq_false_iff_ne.mpr hne', Bool.false_and]
    rw [List.cons_append, SourceEdit.indexOf, hprefix, ih hrest]
    rfl

theorem find_gap {before rest : Text} (hgap : ∀ c ∈ gap, isSpace c = true) (hne : text ≠ [])
    (hhead : ∀ c ∈ text.head?, isSpace c = false) :
    SourceEdit.find (before ++ (gap ++ (text ++ rest))) text before.length =
      some (before.length + gap.length) := by
  have hin : before.length ≤ (before ++ (gap ++ (text ++ rest))).length := by
    rw [List.length_append]
    exact Nat.le_add_right _ _
  rw [SourceEdit.find, if_pos hin, List.drop_left, indexOf_gap hgap hne hhead, Option.map_some,
    Nat.add_comm]

def Section.span (s : Section) : Span Char := ⟨s.sourceStart, s.sourceEnd, s.bodyMd⟩

/-- **Sections that stand in the document are found where they stand**, from the end of the one
before. -/
theorem sectionsFrom_tiled (title : Text) {texts : List Text} (h : Standing texts t)
    (position : Nat) (before : Text) :
    Tiled isSpace words (before ++ t)
      ((sectionsFrom title (before ++ t) position before.length texts).map Section.span) ∧
    ∀ a ∈ ((sectionsFrom title (before ++ t) position before.length texts).map Section.span).head?,
      (∀ c ∈ slice (before ++ t) before.length a.start, isSpace c = true) ∧
        ((∃ c ∈ t.head?, isSpace c = true) → before.length < a.start) := by
  induction h generalizing position before with
  | last t => exact ⟨.nil, fun _ h => absurd h (Option.not_mem_none _)⟩
  | @next gap text rest texts hgap hne hhead hnext htail ih =>
    have hcursor : before.length + gap.length + text.length = (before ++ (gap ++ text)).length := by
      simp [Nat.add_assoc]
    have hmarkdown : before ++ (gap ++ (text ++ rest)) = before ++ (gap ++ text) ++ rest := by simp
    obtain ⟨htiled, hfirst⟩ := ih (position + 1) (before ++ (gap ++ text))
    rw [← hmarkdown, ← hcursor] at htiled hfirst
    rw [sectionsFrom, find_gap hgap hne hhead, Option.getD_some]
    refine ⟨.cons ⟨Nat.le_add_right _ _, ?_, ?_⟩ (fun b hb => ?_) htiled, ?_⟩
    · rw [hmarkdown, Section.span]
      dsimp only
      rw [hcursor]
      exact (List.prefix_append _ rest).length_le
    · have hslice := slice_at (before ++ gap) text rest
      rw [List.length_append, List.append_assoc] at hslice
      exact congrArg words hslice
    · obtain ⟨hblank, hlater⟩ := hfirst b hb
      refine ⟨hlater (hnext ?_), hblank⟩
      rintro rfl
      cases hb
    · intro a ha
      cases Option.some.inj ha
      refine ⟨?_, ?_⟩
      · rw [Section.span]
        rwa [slice_at]
      · rintro ⟨c, hc, hspace⟩
        rw [Section.span]
        cases gap with
        | nil =>
          rw [List.nil_append, List.head?_append_of_ne_nil _ hne] at hc
          rw [hhead c hc] at hspace
          cases hspace
        | cons d gap => exact Nat.lt_add_of_pos_right (Nat.succ_pos _)

/-- A document that is not cut into sections, or whose sections hold no breaks but newlines. -/
def Searchable (autoSplit : Bool) (markdown : Text) : Prop :=
  autoSplit = true → 2 ≤ (sectionTexts markdown).length →
    ∀ text ∈ sectionTexts markdown, ∀ c ∈ text, isLineBreak c = true → c = '\n'

theorem bodies_groups (markdown : Text) : bodiesFrom [] (splitlines markdown) =
    (lineGroups [] (Ask.splitLines markdown)).map bodyOf :=
  bodiesFrom_groups [] (Ask.splitLines markdown)

theorem mem_lineGroups {group : List Text} (h : Lined (current ++ lines))
    (hgroup : group ∈ lineGroups current lines) : Lined group := by
  induction lines generalizing current with
  | nil =>
    rw [lineGroups] at hgroup
    split at hgroup
    · cases hgroup
    · rw [List.mem_singleton.mp hgroup]
      exact h.front
  | cons line lines ih =>
    rw [lineGroups] at hgroup
    split at hgroup
    · rcases List.mem_cons.mp hgroup with rfl | hgroup
      · exact h.front
      · have hline : Lined ([line] ++ lines) := h.back
        exact ih hline hgroup
    · exact ih (by simpa using h) hgroup

theorem lined_splitLines (markdown : Text) : Lined ([] ++ Ask.splitLines markdown) :=
  lined_splitLinesFrom (List.forall_mem_nil _)

theorem standing_sectionTexts (markdown : Text) : Standing (sectionTexts markdown) markdown := by
  have hgroups := standing_groups (lined_splitLines markdown)
  have hflatten : ([] ++ Ask.splitLines markdown).flatten = markdown :=
    Chunking.splitLinesFrom_flatten [] markdown
  rwa [hflatten] at hgroups

variable {autoSplit : Bool}

theorem standing_bodies (h : Searchable autoSplit markdown) (hsome : strip markdown ≠ []) :
    Standing (bodies autoSplit markdown) markdown := by
  rw [bodies, bodies_groups, List.length_map]
  split
  · obtain ⟨gap, tail, hmarkdown, hgap, -⟩ := Text.strip_split markdown
    have hstanding := Standing.next hgap hsome (Text.strip_head _)
      (fun hnil => absurd rfl hnil) (.last tail)
    rwa [← hmarkdown] at hstanding
  · next hmany =>
    rw [not_or, Nat.not_lt, Bool.not_eq_false] at hmany
    have hnewlines := h hmany.2 (by rw [sectionTexts, List.length_map]; exact hmany.1)
    convert standing_sectionTexts markdown using 1
    refine List.map_congr_left fun group hgroup => ?_
    exact strip_joinLines (mem_lineGroups (lined_splitLines markdown) hgroup)
      (hnewlines _ (List.mem_map_of_mem hgroup))

theorem bodies_blank (autoSplit : Bool) (h : strip markdown = []) :
    bodies autoSplit markdown = [[]] := by
  have hnone : sectionTexts markdown = [] := by
    have hstanding := standing_sectionTexts markdown
    have hblank := Text.strip_nil_iff.mp h
    generalize sectionTexts markdown = texts at hstanding
    cases hstanding with
    | last => rfl
    | next hgap hne hhead hnext htail =>
      obtain ⟨c, text, rfl⟩ := List.exists_cons_of_ne_nil hne
      exact absurd (hhead c rfl) (by rw [hblank c (by simp)]; exact Bool.noConfusion)
  rw [bodies, bodies_groups, List.map_eq_nil_iff.mp hnone, h]
  rfl

theorem majorSections_tiled (h : Searchable autoSplit markdown) (title : Text) :
    Tiled isSpace words markdown ((majorSections autoSplit title markdown).map Section.span) := by
  by_cases hblank : strip markdown = []
  · rw [majorSections, bodies_blank autoSplit hblank]
    have hfind : SourceEdit.find markdown [] 0 = some 0 := by
      cases markdown <;> rfl
    rw [sectionsFrom, hfind]
    exact .cons ⟨le_rfl, Nat.zero_le _, rfl⟩ (fun _ h => absurd h (Option.not_mem_none _)) .nil
  · exact (sectionsFrom_tiled title (standing_bodies h hblank) 1 []).1

/-! ### Merging -/

def Candidate.span (c : Candidate) : Span Char := c.toSection.span

theorem Tiled.followedBy {pre post : List Candidate} {m c d : Candidate}
    (hspan : m.span = c.span.join "\n\n".toList d.span)
    (h : Tiled isSpace words markdown ((pre ++ c :: d :: post).map Candidate.span)) :
    Tiled isSpace words markdown ((pre ++ m :: post).map Candidate.span) := by
  rw [List.map_append] at h
  rw [List.map_append, List.map_cons, hspan]
  exact h.merge Text.words_loose (List.cons_ne_nil _ _) paragraph_blank

/-- Absorbing keeps the spans true. -/
theorem tiled_absorbFrom {merged items : List Candidate} {pending : Option Candidate}
    (hpending : pending.isSome → merged = [])
    (h : Tiled isSpace words markdown ((merged ++ (pending.toList ++ items)).map Candidate.span)) :
    Tiled isSpace words markdown ((absorbFrom merged pending items).map Candidate.span) := by
  induction items generalizing merged pending with
  | nil => rwa [List.append_nil] at h
  | cons item rest ih =>
    have hcurrent : Tiled isSpace words markdown
        ((merged ++ pending.elim item item.after :: rest).map Candidate.span) := by
      cases pending with
      | none => exact h
      | some p => exact Tiled.followedBy (m := item.after p) rfl h
    rw [absorbFrom]
    generalize pending.elim item item.after = current at hcurrent
    split
    · refine ih (by simp) ?_
      simpa using hcurrent
    · split
      · next hfirst =>
        subst hfirst
        exact ih (fun _ => rfl) hcurrent
      · next hlater =>
        obtain ⟨init, last, rfl⟩ := (List.eq_nil_or_concat' merged).resolve_left hlater
        rw [List.modifyLast_concat]
        refine ih (by simp) ?_
        rw [List.append_assoc] at hcurrent ⊢
        exact Tiled.followedBy (m := last.followedBy current) rfl hcurrent

variable {routed : List Candidate}

theorem tiled_absorbHollowSections (h : Tiled isSpace words markdown (routed.map Candidate.span)) :
    Tiled isSpace words markdown ((absorbHollowSections routed).map Candidate.span) := by
  rw [absorbHollowSections]
  split
  · exact h
  · exact tiled_absorbFrom (fun hnone => absurd hnone Bool.false_ne_true) h

/-- So does grouping. -/
theorem tiled_groupFrom {grouped items : List Candidate}
    (h : Tiled isSpace words markdown ((grouped ++ items).map Candidate.span)) :
    Tiled isSpace words markdown ((groupFrom grouped items).map Candidate.span) := by
  induction items generalizing grouped with
  | nil => rwa [List.append_nil] at h
  | cons item rest ih =>
    rw [groupFrom]
    split
    · next hsame =>
      obtain ⟨init, last, rfl⟩ := (List.eq_nil_or_concat' grouped).resolve_left hsame.1
      rw [List.modifyLast_concat]
      refine ih ?_
      rw [List.append_assoc] at h ⊢
      exact Tiled.followedBy (m := last.followedBy item) rfl h
    · refine ih ?_
      rwa [List.append_assoc]

/-! ### When the spans point at their candidates -/

/-- Each candidate has its text between its places, up to white space, and the places of one come
after those of the one before. -/
structure Pointed (markdown : Text) (candidates : List Candidate) : Prop where
  stands : ∀ c ∈ candidates, Stands words markdown c.span
  apart : candidates.IsChain fun c d => c.sourceEnd ≤ d.sourceStart

theorem Pointed.of_tiled {candidates : List Candidate}
    (h : Tiled isSpace words markdown (candidates.map Candidate.span)) :
    Pointed markdown candidates where
  stands c hc := h.stands c.span (List.mem_map_of_mem hc)
  apart := (List.isChain_map Candidate.span).mp h.follows |>.imp fun _ _ hnext => hnext.before.le

def OpensBlank (markdown : Text) : Prop :=
  (∃ c ∈ markdown.head?, isSpace c = true) ∧ strip markdown ≠ []

/-- The start of a text that is as long as the stripped text misses its end, when the text opens
with white space. -/
theorem words_take_ne (h : OpensBlank markdown) :
    words (slice markdown 0 (strip markdown).length) ≠ words (strip markdown) := by
  obtain ⟨⟨c, hc, hspace⟩, hsome⟩ := h
  obtain ⟨gap, tail, hmarkdown, hgap, -⟩ := Text.strip_split markdown
  obtain ⟨first, last, hstrip⟩ := (List.eq_nil_or_concat' (strip markdown)).resolve_left hsome
  have hlast : isSpace last = false :=
    Text.strip_last markdown last (by rw [hstrip, List.getLast?_concat]; rfl)
  have hgap' : gap ≠ [] := by
    rintro rfl
    rw [hmarkdown, List.nil_append, List.head?_append_of_ne_nil _ hsome] at hc
    rw [Text.strip_head markdown c hc] at hspace
    cases hspace
  have hshort : slice markdown 0 (strip markdown).length <+: gap ++ first := by
    have hpos := List.length_pos_iff.mpr hgap'
    rw [hstrip] at hmarkdown ⊢
    rw [slice, List.drop_zero, hmarkdown]
    refine List.prefix_of_prefix_length_le (List.take_prefix _ _) ⟨[last] ++ tail, by simp⟩ ?_
    simp only [List.length_take, List.length_append, List.length_singleton]
    omega
  intro hwords
  have hink := congrArg List.flatten hwords
  rw [Text.words_flatten, Text.words_flatten] at hink
  have hle : (ink isSpace (slice markdown 0 (strip markdown).length)).length ≤
      (ink isSpace first).length := by
    have hprefix := (hshort.sublist.filter fun c => !isSpace c).length_le
    rwa [← ink, ← ink, Ink.ink_append, Ink.ink_blanks hgap, List.nil_append] at hprefix
  rw [hink, hstrip, Ink.ink_append, Ink.ink_cons_of_not hlast] at hle
  exact absurd hle (by simp)

/-- The document is kept whole: after hollow sections are absorbed, none has a department. -/
def KeptWhole (routed : List Candidate) : Bool :=
  (absorbHollowSections routed).all (·.departmentIds.isEmpty)

theorem pointed_whole_iff (P : Python) (title markdown : Text) (departments : List Department)
    (h : KeptWhole routed = true) :
    Pointed markdown (finalize P title markdown departments routed) ↔ ¬OpensBlank markdown := by
  rw [KeptWhole] at h
  rw [finalize, if_pos h]
  constructor
  · intro hpointed hopens
    exact words_take_ne hopens (hpointed.stands _ List.mem_cons_self).text
  · intro hopens
    refine ⟨fun c hc => ?_, List.isChain_singleton _⟩
    rw [List.mem_singleton.mp hc]
    refine ⟨Nat.zero_le _, Text.length_strip_le markdown, ?_⟩
    change words (slice markdown 0 (strip markdown).length) = words (strip markdown)
    by_cases hblank : strip markdown = []
    · rw [hblank]
      rfl
    · have hhead : ∀ c ∈ markdown.head?, isSpace c = false := fun c hc =>
      Bool.eq_false_iff.mpr fun hspace => hopens ⟨⟨c, hc, hspace⟩, hblank⟩
      obtain ⟨run, -, hrun⟩ := Text.rstrip_prefix markdown
      rw [← strip_of_head hhead] at hrun
      have hslice := slice_at [] (strip markdown) run
      rw [List.nil_append, ← hrun, List.length_nil, Nat.zero_add] at hslice
      rw [hslice]

theorem pointed_cut (P : Python) {title : Text} (departments : List Department)
    (h : KeptWhole routed = false) (hsearchable : Searchable autoSplit markdown)
    (hrouted : routed.map Candidate.span = (majorSections autoSplit title markdown).map Section.span) :
    Pointed markdown (finalize P title markdown departments routed) := by
  rw [KeptWhole] at h
  rw [finalize, if_neg (by rw [h]; exact Bool.false_ne_true)]
  refine .of_tiled ?_
  rw [map_numbered fun _ _ => rfl]
  refine tiled_groupFrom (tiled_absorbHollowSections ?_)
  rw [hrouted]
  exact majorSections_tiled hsearchable title

/-- `routed` of `route_document_candidates`. -/
def keywordRouted (P : Python) (settings : Settings) (title markdown : Text)
    (departments : List Department) : List Candidate :=
  (majorSections settings.autoSplit title markdown).map fun s =>
    candidateOf s (suggestDepartments P s.title s.bodyMd departments)

/-- `routed` of `route_document_candidates_llm`. -/
def llmRouted (P : Python) (settings : Settings) (model : Model) (title markdown : Text)
    (departments : List Department) (useLlm : Bool) : List Candidate :=
  let sections := majorSections settings.autoSplit title markdown
  let outcome :=
    if useLlm then llmSectionDepartments settings model title sections departments
    else ⟨.off, []⟩
  sections.mapIdx fun i s =>
    candidateOf s
      (assigned (outcome.assignments.lookup (i + 1))
        (suggestDepartments P s.title s.bodyMd departments))

theorem span_llmRouted (P : Python) (settings : Settings) (model : Model) (title markdown : Text)
    (departments : List Department) (useLlm : Bool) :
    (llmRouted P settings model title markdown departments useLlm).map Candidate.span =
      (majorSections settings.autoSplit title markdown).map Section.span := by
  refine List.ext_getElem? fun i => ?_
  rw [llmRouted, List.getElem?_map, List.getElem?_map, List.getElem?_mapIdx, Option.map_map]
  rfl

/-- **When the spans point at the text of their candidates.**  A document that is kept whole must
not open with white space, unless it is blank; for one that is cut it is enough that the breaks
inside its sections are newlines. -/
theorem spans_pointed (P : Python) (settings : Settings) (model : Model) (title markdown : Text)
    (departments : List Department) (useLlm : Bool) :
    (KeptWhole (keywordRouted P settings title markdown departments) = true →
      (Pointed markdown (routeDocumentCandidates P settings title markdown departments) ↔
        ¬OpensBlank markdown)) ∧
    (KeptWhole (keywordRouted P settings title markdown departments) = false →
      Searchable settings.autoSplit markdown →
        Pointed markdown (routeDocumentCandidates P settings title markdown departments)) ∧
    (KeptWhole (llmRouted P settings model title markdown departments useLlm) = true →
      (Pointed markdown
          (routeDocumentCandidatesLlm P settings model title markdown departments useLlm) ↔
        ¬OpensBlank markdown)) ∧
    (KeptWhole (llmRouted P settings model title markdown departments useLlm) = false →
      Searchable settings.autoSplit markdown →
        Pointed markdown
          (routeDocumentCandidatesLlm P settings model title markdown departments useLlm)) := by
  refine ⟨pointed_whole_iff P title markdown departments,
    fun hcut hsearchable => pointed_cut P departments hcut hsearchable ?_,
    pointed_whole_iff P title markdown departments,
    fun hcut hsearchable => pointed_cut P departments hcut hsearchable
      (span_llmRouted P settings model title markdown departments useLlm)⟩
  exact List.map_map

/-- Two sections of two lines, one of them of a department: the document is cut, and its spans
point. -/
theorem spans_pointed_newlines : Pointed "# Timing\n## Paths\nphysical\n## Corners\nslow".toList
    (routeDocumentCandidates Ask.asciiPython ⟨true, true⟩ "Timing".toList
      "# Timing\n## Paths\nphysical\n## Corners\nslow".toList [physicalDesign]) :=
  (spans_pointed Ask.asciiPython ⟨true, true⟩ chatty "Timing".toList
    "# Timing\n## Paths\nphysical\n## Corners\nslow".toList [physicalDesign] true).2.1
      (by decide +kernel) fun _ _ text htext c hc hbreak => by
        have hall : ((sectionTexts
            "# Timing\n## Paths\nphysical\n## Corners\nslow".toList).flatten.filter
              isLineBreak).all (· == '\n') = true := by decide +kernel
        have hin := List.mem_filter.mpr ⟨List.mem_flatten_of_mem htext hc, hbreak⟩
        exact eq_of_beq (List.all_eq_true.mp hall c hin)

/-- A document kept whole that opens with a newline: its last character is beyond the span.  Two
sections with the same lines, a carriage return in the first: it is found where the second stands.
-/
theorem spans_astray :
    ¬Pointed "\nhello".toList
      (routeDocumentCandidates Ask.asciiPython ⟨true, true⟩ [] "\nhello".toList []) ∧
    ¬Pointed "## A\r\nphysical\n## A\nphysical".toList
      (routeDocumentCandidates Ask.asciiPython ⟨true, true⟩ []
        "## A\r\nphysical\n## A\nphysical".toList [physicalDesign]) := by
  constructor
  · intro hpointed
    have hshort : ∃ c ∈ routeDocumentCandidates Ask.asciiPython ⟨true, true⟩ []
        "\nhello".toList [],
          words (slice "\nhello".toList c.sourceStart c.sourceEnd) ≠ words c.bodyMd := by
      decide +kernel
    obtain ⟨c, hc, hne⟩ := hshort
    exact hne (hpointed.stands c hc).text
  · intro hpointed
    have hlong : ∃ c ∈ routeDocumentCandidates Ask.asciiPython ⟨true, true⟩ []
        "## A\r\nphysical\n## A\nphysical".toList [physicalDesign],
          "## A\r\nphysical\n## A\nphysical".toList.length < c.sourceEnd := by
      decide +kernel
    obtain ⟨c, hc, hlt⟩ := hlong
    exact absurd (hpointed.stands c hc).bound (Nat.not_le.mpr hlt)

end QnscKb.Routing
