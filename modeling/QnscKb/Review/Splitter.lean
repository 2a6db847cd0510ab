import QnscKb.Lib.Spans
import QnscKb.Routing.Sections

/-!
# Review — Splitter

The review candidates of a formatted document (`src/domain/document_splitter.py`): the whole
document, or broad ranges of an exceptionally long one, each with its place in the text and the
pages it is said to come from.
-/

namespace QnscKb.Splitter

open Spans (slice Covers)
open Text (isSpace strip)

def MAX_REVIEW_CANDIDATE_CHARS : Nat := 48000

structure Page where
  pageNumber : Nat
  text : Text
  deriving DecidableEq

/-- The pages of a source, numbered from 1 on in their order; a page without a text may be among
them, and one may be missing. -/
structure PageTexts where
  pages : List Page
  numbered : (0 :: pages.map (·.pageNumber)).Pairwise (· < ·)

def pageBreak : Text := ['\n', '\n']

/-- `"\n\n".join(…)` of the texts there are, as the callers join them. -/
def joined (pages : List Page) : Text :=
  Text.join pageBreak ((pages.map (·.text)).filter (!·.isEmpty))

/-! ### Ranges of a long document -/

/-- `_candidate_title`: the title, and the heading it was taken from. -/
def candidateTitle (body : Text) (index : Nat) (fallback : Text) : Text × Option Text :=
  let part := fallback ++ " — part ".toList ++ Ask.decimal index
  match (Routing.splitlines body).find? Routing.isHeading with
  | some line =>
    let heading := (strip ((strip line).dropWhile (· == '#'))).take 255
    (Text.orElse (some heading) part, some heading)
  | none => (part.take 255, none)

def rfind (text needle : Text) (start stop : Nat) : Int :=
  match (List.range' start (stop + 1 - start)).reverse.find? fun i =>
      decide (i + needle.length ≤ stop) && needle.isPrefixOf (text.drop i) with
  | some i => i
  | none => -1

/-- Where the range from `start` on ends. -/
def cutEnd (text : Text) (start : Nat) : Nat :=
  let stop := min (start + MAX_REVIEW_CANDIDATE_CHARS) text.length
  let boundary := max (rfind text ['\n', '\n'] start stop) (rfind text ['\n'] start stop)
  let cut := if stop < text.length ∧ boundary > start + MAX_REVIEW_CANDIDATE_CHARS / 2 then
    boundary.toNat else stop
  -- A long unbroken line still has to make forward progress.
  if (strip (slice text start cut)).isEmpty then stop else cut

def skipSpace (text : Text) (place : Nat) : Nat :=
  place + ((text.drop place).takeWhile isSpace).length

/-- A candidate before it is given its pages. -/
structure Part where
  position : Nat
  title : Text
  bodyMd : Text
  sourceStart : Nat
  sourceEnd : Nat
  heading : Option Text
  deriving DecidableEq

variable {text : Text}

theorem rfind_le {needle : Text} {start stop : Nat} : rfind text needle start stop ≤ stop := by
  rw [rfind]
  split
  · rename_i i hfound
    have hfits := List.find?_some hfound
    simp only [Bool.and_eq_true, decide_eq_true_eq] at hfits
    omega
  · omega

/-- A cut goes forward. -/
theorem cutEnd_lt {start : Nat} (h : start < text.length) : start < cutEnd text start := by
  have hmax : MAX_REVIEW_CANDIDATE_CHARS = 48000 := rfl
  simp only [cutEnd]
  split_ifs <;> omega

/-- It goes no further than a candidate may be long. -/
theorem cutEnd_le (text : Text) (start : Nat) :
    cutEnd text start ≤ min (start + MAX_REVIEW_CANDIDATE_CHARS) text.length := by
  simp only [cutEnd]
  have hparagraph := @rfind_le text ['\n', '\n'] start
    (min (start + MAX_REVIEW_CANDIDATE_CHARS) text.length)
  have hline := @rfind_le text ['\n'] start
    (min (start + MAX_REVIEW_CANDIDATE_CHARS) text.length)
  split_ifs <;> omega

theorem le_skipSpace (text : Text) (place : Nat) : place ≤ skipSpace text place :=
  Nat.le_add_right _ _

/-- `_large_document_candidates`, from a place and a position on. -/
def partsFrom (title text : Text) (start index : Nat) : List Part :=
  if h : start < text.length then
    let stop := cutEnd text start
    let body := strip (slice text start stop)
    let titled := candidateTitle body index title
    { position := index
      title := titled.1
      bodyMd := body
      sourceStart := start
      sourceEnd := stop
      heading := titled.2 } :: partsFrom title text (skipSpace text stop) (index + 1)
  else []
termination_by text.length - start
decreasing_by
  have hforward := cutEnd_lt h
  have hskip := le_skipSpace text (cutEnd text start)
  omega

def largeDocumentCandidates (title text : Text) : List Part := partsFrom title text 0 1

/-! ### The pages of a range -/

/-- The place of a candidate; `heading` is the source's `section`. -/
structure SourcePosition where
  offsetStart : Nat
  offsetEnd : Nat
  heading : Option Text
  pageStart : Option Nat
  pageEnd : Option Nat
  deriving DecidableEq

/-- The scan over the pages: the cumulative length, and the pages found so far. -/
structure Scan where
  cursor : Nat
  first : Option Nat
  last : Option Nat

def scanPage (start stop : Nat) (scan : Scan) (page : Page) : Scan :=
  { cursor := scan.cursor + page.text.length
    first := if scan.first = none ∧ stop > scan.cursor then some page.pageNumber else scan.first
    last := if start < scan.cursor + page.text.length then some page.pageNumber else scan.last }

def scanned (pages : List Page) (start stop : Nat) : Scan :=
  pages.foldl (scanPage start stop) ⟨0, none, none⟩

/-- `position`; without a page list the keys of the pages are left out, which reads as `none`. -/
def position (pages : List Page) (start stop : Nat) (heading : Option Text) : SourcePosition :=
  let scan := scanned pages start stop
  { offsetStart := start
    offsetEnd := stop
    heading := heading
    pageStart := scan.first
    -- `last or first`: a page number of 0 counts as none
    pageEnd := scan.last.filter (· ≠ 0) <|> scan.first }

structure Candidate extends Part where
  sourcePosition : SourcePosition
  deriving DecidableEq

def Part.located (pages : List Page) (part : Part) : Candidate :=
  { part with
    sourcePosition := Splitter.position pages part.sourceStart part.sourceEnd part.heading }

def wholePart (title text : Text) : Part :=
  let titled := candidateTitle text 1 title
  { position := 1
    title := titled.1
    bodyMd := text
    sourceStart := 0
    sourceEnd := text.length
    heading := titled.2 }

/-- The parts of a stripped text; `autoSplit` is `DOCUMENT_AUTO_SPLIT_ENABLED`. -/
def parts (autoSplit : Bool) (title text : Text) : List Part :=
  if text.isEmpty then []
  else if text.length ≤ MAX_REVIEW_CANDIDATE_CHARS ∨ autoSplit = false then [wholePart title text]
  else largeDocumentCandidates title text

def splitDocumentCandidates (autoSplit : Bool) (title text : Text) (pages : List Page) :
    List Candidate :=
  (parts autoSplit title (strip text)).map (Part.located pages)

/-! ### Spans and bodies -/

def Part.span (part : Part) : Nat × Nat := (part.sourceStart, part.sourceEnd)

theorem skipSpace_blank {place i : Nat} {c : Char} (hplace : place ≤ i)
    (hi : i < skipSpace text place) (hc : text[i]? = some c) : isSpace c = true := by
  have hrun : i - place < ((text.drop place).takeWhile isSpace).length := by
    rw [skipSpace] at hi
    omega
  have hdrop : (text.drop place)[i - place]? = some c := by
    rw [List.getElem?_drop, Nat.add_sub_cancel' hplace, hc]
  rw [← List.takeWhile_append_dropWhile (p := isSpace) (l := text.drop place),
    List.getElem?_append_left hrun] at hdrop
  exact List.mem_takeWhile_imp (List.mem_of_getElem? hdrop)

theorem partsFrom_cover (title text : Text) (start index : Nat) :
    Covers isSpace text start ((partsFrom title text start index).map Part.span) := by
  fun_induction partsFrom title text start index with
  | case1 start index h stop body titled ih =>
    have hbound : stop ≤ text.length := (cutEnd_le text start).trans (Nat.min_le_right _ _)
    exact .cons (cutEnd_lt h) hbound (le_skipSpace text stop)
      (fun i c hi hnext hc => skipSpace_blank hi hnext hc) ih
  | case2 start index h => exact .nil (Nat.le_of_not_lt h)

theorem partsFrom_body (title text : Text) (start index : Nat) :
    ∀ part ∈ partsFrom title text start index,
      part.bodyMd = strip (slice text part.sourceStart part.sourceEnd) := by
  fun_induction partsFrom title text start index with
  | case1 start index h stop body titled ih => exact List.forall_mem_cons.mpr ⟨rfl, ih⟩
  | case2 start index h => exact fun part hpart => absurd hpart List.not_mem_nil

theorem partsFrom_short (title text : Text) (start index : Nat) :
    ∀ part ∈ partsFrom title text start index,
      part.sourceEnd ≤ part.sourceStart + MAX_REVIEW_CANDIDATE_CHARS := by
  fun_induction partsFrom title text start index with
  | case1 start index h stop body titled ih =>
    exact List.forall_mem_cons.mpr ⟨(cutEnd_le text start).trans (Nat.min_le_left _ _), ih⟩
  | case2 start index h => exact fun part hpart => absurd hpart List.not_mem_nil

/-- The parts cover the text. -/
theorem parts_cover (autoSplit : Bool) (title text : Text) :
    Covers isSpace text 0 ((parts autoSplit title text).map Part.span) := by
  rw [parts]
  split_ifs with hempty hwhole
  · exact .nil (by simp [List.isEmpty_iff.mp hempty])
  · have hlength : 0 < text.length := List.length_pos_iff.mpr (by simpa using hempty)
    exact .cons hlength le_rfl le_rfl (fun i c hi hnext _ => absurd hnext (Nat.not_lt.mpr hi))
      (.nil le_rfl)
  · exact partsFrom_cover title text 0 1

/-- A part is the text of its span. -/
theorem parts_body (autoSplit : Bool) (title text : Text) :
    ∀ part ∈ parts autoSplit title (strip text),
      part.bodyMd = strip (slice (strip text) part.sourceStart part.sourceEnd) := by
  rw [parts]
  split_ifs with hempty hwhole
  · exact fun part hpart => absurd hpart List.not_mem_nil
  · intro part hpart
    cases List.mem_singleton.mp hpart
    rw [wholePart]
    rw [slice, List.take_length, List.drop_zero, Text.strip_strip]
  · exact partsFrom_body title (strip text) 0 1

end QnscKb.Splitter
