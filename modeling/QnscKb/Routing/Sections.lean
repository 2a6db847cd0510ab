import QnscKb.Ask.Context
import QnscKb.Ask.Sections
import QnscKb.Lib.Lines
import QnscKb.SourceEdit.Matching

/-!
# Routing — Sections

The broad sections a formatted document is routed by (`_major_sections` of
`src/domain/department_routing.py`), and what a text says line by line.
-/

namespace QnscKb.Routing

open Lines (trimEnds)

/-! ### Lines -/

def splitlines (t : Text) : List Text := (Ask.splitLines t).map Ask.chomp

/-- The lines of a text that are not blank, without the white space at their ends. -/
def statedLines (t : Text) : List Text :=
  ((splitlines t).map Text.strip).filter (!·.isEmpty)

/-- Those of some lines that are not blank. -/
def inkedLines (lines : List Text) : List Text := lines.filter fun line => !(Text.strip line).isEmpty

def exactLines (t : Text) : List Text := inkedLines (splitlines t)

def joinLines (lines : List Text) : Text := Text.join ['\n'] lines

/-- What follows a heading's marks: white space, and something after it (`\s+\S`). -/
def titled (t : Text) : Bool :=
  (t.head?.any Text.isSpace) && !(Text.lstrip t).isEmpty

/-- `^##(?!#)\s+\S`, on a stripped line. -/
def isMajor (line : Text) : Bool :=
  match Text.strip line with
  | '#' :: '#' :: rest => rest.head? != some '#' && titled rest
  | _ => false

/-- The marks a line opens with, `^#{1,6}`, and what follows them. -/
def afterMarks (line : Text) : Option Text :=
  let marks := (line.takeWhile (· == '#')).length
  if 1 ≤ marks ∧ marks ≤ 6 then some (line.drop marks) else none

/-- `^#{1,6}\s+\S`, on a stripped line. -/
def isHeading (line : Text) : Bool := (afterMarks (Text.strip line)).any titled

/-- `^#{1,6}\s+`, on a stripped line. -/
def opensHeading (line : Text) : Bool :=
  (afterMarks (Text.strip line)).any fun rest => rest.head?.any Text.isSpace

def bodyWithoutHeadings (body : Text) : Text :=
  Text.strip (joinLines ((splitlines body).filter (!opensHeading ·)))

/-! ### Major sections -/

structure Section where
  position : Nat
  title : Text
  bodyMd : Text
  sourceStart : Nat
  sourceEnd : Nat
  heading : Option Text
  deriving DecidableEq

/-- The bodies of the sections, after the lines of the one being read. -/
def bodiesFrom (current : List Text) : List Text → List Text
  | [] =>
    if (Text.strip (joinLines current)).isEmpty then [] else [Text.strip (joinLines current)]
  | line :: lines =>
    -- A buffer without a major heading is front matter: it stays with the first section.
    if isMajor line && !(Text.strip (joinLines current)).isEmpty && current.any isMajor then
      Text.strip (joinLines current) :: bodiesFrom [line] lines
    else bodiesFrom (current ++ [line]) lines

/-- The bodies `_major_sections` makes candidates of; `autoSplit` is
`DOCUMENT_AUTO_SPLIT_ENABLED`. -/
def bodies (autoSplit : Bool) (markdown : Text) : List Text :=
  let sections := bodiesFrom [] (splitlines markdown)
  if sections.length < 2 ∨ autoSplit = false then [Text.strip markdown] else sections

def headingOf (body : Text) : Option Text :=
  ((splitlines body).find? isHeading).map fun line =>
    (Text.strip (line.dropWhile (· == '#'))).take 255

/-- The sections of bodies, the first of them at `position`, from `cursor` on. -/
def sectionsFrom (title markdown : Text) : Nat → Nat → List Text → List Section
  | _, _, [] => []
  | position, cursor, body :: bodies =>
    let start := (SourceEdit.find markdown body cursor).getD cursor
    { position
      title := Text.orElse (headingOf body)
        (if position = 1 then title else title ++ " — part ".toList ++ Ask.decimal position)
      bodyMd := body
      sourceStart := start
      sourceEnd := start + body.length
      heading := headingOf body } ::
      sectionsFrom title markdown (position + 1) (start + body.length) bodies

def majorSections (autoSplit : Bool) (title markdown : Text) : List Section :=
  sectionsFrom title markdown 1 0 (bodies autoSplit markdown)

/-! ### What a text says -/

theorem strip_eq_trim (t : Text) : Text.strip t = Lines.trim Text.isSpace t := rfl

theorem strip_chomp (line : Text) : Text.strip (Ask.chomp line) = Text.strip line := by
  induction line using List.reverseRecOn with
  | nil => rfl
  | append_singleton line c ih =>
    have hchomp : Ask.chomp (line ++ [c]) =
        if Ask.isLineBreak c then Ask.chomp line else line ++ [c] :=
      List.rdropWhile_concat Ask.isLineBreak line c
    rw [hchomp]
    split_ifs with hbreak
    · rw [ih, strip_eq_trim, strip_eq_trim, Lines.trim_concat (Ask.isSpace_of_isLineBreak hbreak)]
    · rfl

abbrev said (t : Text) : List Text := Lines.stated Ask.isLineBreak Text.isSpace t

/-- The lines hold no break, and state what the text they were cut from states, whatever is trimmed
from their ends. -/
theorem splitLinesFrom_stated (blank : Char → Bool) {line t : Text}
    (h : ∀ c ∈ line, Ask.isLineBreak c = false) :
    (∀ l ∈ (Ask.splitLinesFrom line t).map Ask.chomp, ∀ c ∈ l, Ask.isLineBreak c = false) ∧
      ((Ask.splitLinesFrom line t).map Ask.chomp).flatMap (Lines.stated Ask.isLineBreak blank) =
        Lines.stated Ask.isLineBreak blank (line ++ t) := by
  fun_induction Ask.splitLinesFrom line t with
  | case1 line hempty => simp [List.isEmpty_iff.mp hempty]
  | case2 line hempty => simpa [Ask.chomp_unbroken h] using h
  | case3 line t ih =>
    obtain ⟨hlines, hsaid⟩ := ih (List.forall_mem_nil _)
    have hfirst : Ask.chomp (line ++ ['\r', '\n']) = line := by
      rw [show line ++ ['\r', '\n'] = line ++ ['\r'] ++ ['\n'] by simp]
      have hconcat : Ask.chomp (line ++ ['\r'] ++ ['\n']) = Ask.chomp (line ++ ['\r']) :=
        List.rdropWhile_concat_pos Ask.isLineBreak _ _ (by decide)
      rw [hconcat, Ask.chomp_concat h (by decide)]
    have hcr : Lines.stated Ask.isLineBreak blank (line ++ '\r' :: '\n' :: t) =
        Lines.stated Ask.isLineBreak blank line ++ Lines.stated Ask.isLineBreak blank ('\n' :: t) :=
      Lines.stated_append_break (by decide) _ _
    have hlf : Lines.stated Ask.isLineBreak blank ('\n' :: t) =
        Lines.stated Ask.isLineBreak blank t :=
      Lines.stated_append_break (by decide) [] t
    rw [List.map_cons, hfirst, List.flatMap_cons, hsaid, hcr, hlf]
    exact ⟨List.forall_mem_cons.mpr ⟨h, hlines⟩, rfl⟩
  | case4 line c t _ hbreak ih =>
    obtain ⟨hlines, hsaid⟩ := ih (List.forall_mem_nil _)
    have hcut : Lines.stated Ask.isLineBreak blank (line ++ c :: t) =
        Lines.stated Ask.isLineBreak blank line ++ Lines.stated Ask.isLineBreak blank t :=
      Lines.stated_append_break hbreak _ _
    rw [List.map_cons, Ask.chomp_concat h hbreak, List.flatMap_cons, hsaid, hcut]
    exact ⟨List.forall_mem_cons.mpr ⟨h, hlines⟩, rfl⟩
  | case5 line c t _ hbreak ih =>
    have hline : ∀ d ∈ line ++ [c], Ask.isLineBreak d = false := by
      simpa [or_imp, forall_and] using ⟨h, by simpa using hbreak⟩
    simpa using ih hline

theorem splitlines_unbroken (t : Text) :
    ∀ line ∈ splitlines t, ∀ c ∈ line, Ask.isLineBreak c = false :=
  (splitLinesFrom_stated Text.isSpace (List.forall_mem_nil _)).1

theorem splitlines_said (t : Text) :
    (∀ l ∈ splitlines t, ∀ c ∈ l, Ask.isLineBreak c = false) ∧
      (splitlines t).flatMap said = said t :=
  splitLinesFrom_stated Text.isSpace (List.forall_mem_nil _)

/-- The lines of a text that are not empty, as they are written. -/
def writtenLines (t : Text) : List Text := (splitlines t).filter (!·.isEmpty)

theorem writtenLines_eq (t : Text) :
    writtenLines t = Lines.stated Ask.isLineBreak (fun _ => false) t := by
  have hstated : (splitlines t).flatMap (Lines.stated Ask.isLineBreak fun _ => false) =
      Lines.stated Ask.isLineBreak (fun _ => false) t :=
    (splitLinesFrom_stated (fun _ => false) (List.forall_mem_nil _)).2
  rw [← hstated, Lines.flatMap_stated (splitlines_unbroken t), funext Lines.trim_never,
    List.map_id', writtenLines]

theorem statedLines_eq (t : Text) : statedLines t = said t := by
  obtain ⟨hlines, hsaid⟩ := splitlines_said t
  rw [← hsaid, statedLines]
  exact (Lines.flatMap_stated hlines).symm

theorem statedLines_strip (t : Text) : statedLines (Text.strip t) = statedLines t := by
  rw [statedLines_eq, statedLines_eq, strip_eq_trim, said, Lines.stated_trim]

/-- A newline between texts loses no line that is not blank. -/
theorem statedLines_join (lines : List Text) :
    statedLines (joinLines lines) = lines.flatMap statedLines := by
  rw [statedLines_eq, funext statedLines_eq]
  exact Lines.stated_intercalate (by decide) lines

theorem statedLines_of_blank {t : Text} (h : (Text.strip t).isEmpty = true) :
    statedLines t = [] := by
  rw [← statedLines_strip, List.isEmpty_iff.mp h]
  rfl

/-! ### Lines as they stand -/

theorem strip_isEmpty (line : Text) : (Text.strip line).isEmpty = line.all Text.isSpace := by
  rw [Bool.eq_iff_iff, List.isEmpty_iff, Text.strip_nil_iff, List.all_eq_true]

theorem inked_filter (lines : List Text) :
    (lines.filter (!·.isEmpty)).filter (!·.all Text.isSpace) =
      lines.filter (!·.all Text.isSpace) := by
  rw [List.filter_filter]
  refine List.filter_congr fun line _ => ?_
  cases line <;> simp

theorem exactLines_eq (t : Text) : exactLines t = Lines.inked Ask.isLineBreak Text.isSpace t := by
  have hwritten : (splitlines t).filter (!·.isEmpty) =
      (t.splitOnP Ask.isLineBreak).filter (!·.isEmpty) := by
    have hstated := writtenLines_eq t
    rw [writtenLines, Lines.stated, funext Lines.trim_never, List.map_id'] at hstated
    exact hstated
  rw [exactLines, inkedLines, Lines.inked, funext fun line => congrArg not (strip_isEmpty line),
    ← inked_filter, hwritten, inked_filter]

theorem exactLines_stated (t : Text) : (exactLines t).map Text.strip = statedLines t := by
  rw [statedLines, List.filter_map]
  rfl

/-- The white space around a text is that of its first line and its last. -/
theorem exactLines_strip (t : Text) :
    exactLines (Text.strip t) = trimEnds Text.isSpace (exactLines t) := by
  rw [exactLines_eq, exactLines_eq, strip_eq_trim,
    Lines.inked_trim fun _ => Ask.isSpace_of_isLineBreak]

theorem exactLines_joinLines {lines : List Text}
    (h : ∀ line ∈ lines, ∀ c ∈ line, Ask.isLineBreak c = false) :
    exactLines (joinLines lines) = inkedLines lines := by
  rw [exactLines_eq, joinLines, Text.join, Lines.inked_intercalate rfl h, inkedLines,
    funext fun line => congrArg not (strip_isEmpty line)]

theorem exactLines_of_blank {t : Text} (h : Text.strip t = []) : exactLines t = [] := by
  have hstated := exactLines_stated t
  rw [statedLines_of_blank (by rw [h]; rfl)] at hstated
  exact List.map_eq_nil_iff.mp hstated

theorem exactLines_paragraphs (s t : Text) :
    exactLines (s ++ ("\n\n".toList ++ t)) = exactLines s ++ exactLines t := by
  rw [exactLines_eq, exactLines_eq, exactLines_eq]
  have hfirst : Lines.inked Ask.isLineBreak Text.isSpace (s ++ '\n' :: '\n' :: t) =
      Lines.inked Ask.isLineBreak Text.isSpace s ++
        Lines.inked Ask.isLineBreak Text.isSpace ('\n' :: t) :=
    Lines.inked_append_break rfl s ('\n' :: t)
  have hsecond : Lines.inked Ask.isLineBreak Text.isSpace ('\n' :: t) =
      Lines.inked Ask.isLineBreak Text.isSpace t :=
    Lines.inked_append_break rfl [] t
  rw [← hsecond]
  exact hfirst

theorem flatten_inkedLines (groups : List (List Text)) :
    (groups.map inkedLines).flatten = inkedLines groups.flatten := by
  rw [inkedLines, List.filter_flatten]
  rfl

/-! ### What the sections say -/

/-- The texts are the lines, cut: each has a group of them, without the white space its first line
opens with and its last ends with. -/
def Cut (lines texts : List Text) : Prop :=
  ∃ groups : List (List Text), groups.flatten = lines ∧
    texts.map exactLines = groups.map (trimEnds Text.isSpace)

end QnscKb.Routing
