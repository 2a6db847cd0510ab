import QnscKb.Ask.SentinelLines
import QnscKb.Routing.Sections

/-!
# Chunking — Noise

What is taken out of the pages of a source on their way into chunks
(`src/domain/text_noise.py`): page labels, rows of a table of contents, and the headers and footers
that recur from page to page.  Lower-casing is a parameter, like the tables of the patterns.
-/

namespace QnscKb.Noise

open QnscKb.Ask (Unicode afterLiteral)
open QnscKb.Routing (splitlines joinLines statedLines writtenLines)
open Text (isSpace)

variable (U : Unicode) (lower : Text → Text)

/-- `\s+` written as one space, after a blank or not. -/
def foldSpaces (blank : Bool) : Text → Text
  | [] => []
  | c :: t =>
    if isSpace c then
      if blank then foldSpaces true t else ' ' :: foldSpaces true t
    else c :: foldSpaces false t

/-- `\d+` written as one `#`, after a digit or not. -/
def foldDigits (digit : Bool) : Text → Text
  | [] => []
  | c :: t =>
    if (U.digit c).isSome then
      if digit then foldDigits true t else '#' :: foldDigits true t
    else c :: foldDigits false t

def fingerprint (line : Text) : Text :=
  foldDigits U false (lower (Text.strip (foldSpaces false line)))

/-! ### Navigation -/

/-- The first of some literals that a text opens with, letter case ignored: what follows it. -/
def afterAny (literals : List Text) (t : Text) : Option Text :=
  literals.findSome? fun literal => afterLiteral U literal t

def isDigit (c : Char) : Bool := (U.digit c).isSome

def afterNumber (t : Text) : Option Text :=
  if t.head?.any (isDigit U) then some (t.dropWhile (isDigit U)) else none

def pageWords : List Text := ["trang".toList, "page".toList, "pg".toList, "p".toList]

def pageSeparators : List Text :=
  ["/".toList, ['\\'], "of".toList, "tren".toList, "trên".toList, "-".toList, "–".toList,
    "—".toList]

/-- `(?:trang|page|pg|p)\s*\.?\s*`. -/
def afterPageWord (t : Text) : Text :=
  match afterAny U pageWords t with
  | some rest =>
    let rest := Text.lstrip rest
    Text.lstrip (if rest.head? = some '.' then rest.drop 1 else rest)
  | none => t

/-- `\s*(?:/|\\|of|tren|trên|-|–|—)\s*\d+`. -/
def afterLastPage (t : Text) : Text :=
  let separated := afterAny U pageSeparators (Text.lstrip t)
  match separated.bind fun rest => afterNumber U (Text.lstrip rest) with
  | some rest => rest
  | none => t

def isPageLabel (t : Text) : Bool :=
  match afterNumber U (afterPageWord U (Text.lstrip (t.dropWhile "-–—|([".toList.contains))) with
  | some rest => ((Text.lstrip (afterLastPage U rest)).dropWhile "-–—|)]".toList.contains).isEmpty
  | none => false

/-- `_DOT_LEADER_RE.search`, from the end of the line. -/
def hasDotLeader (t : Text) : Bool :=
  let ending := (Text.rstrip t).reverse
  let before := Text.lstrip (ending.dropWhile (isDigit U))
  ending.head?.any (isDigit U) && decide (4 ≤ (before.takeWhile ".·•…".toList.contains).length)

def isNavigationLine (line : Text) : Bool :=
  let stripped := Text.strip line
  if stripped.isEmpty then false else isPageLabel U stripped || hasDotLeader U stripped

/-! ### Boilerplate -/

def minPages : Nat := 3

def maxLineChars : Nat := 120

def texts (pages : List Text) : List Text := pages.filter fun page => !(Text.strip page).isEmpty

/-- `max(min_pages, math.ceil(len(texts) * 0.6))`. -/
def threshold (pages : List Text) : Nat := max minPages ((3 * (texts pages).length + 4) / 5)

def pageFingerprints (page : Text) : List Text :=
  (((statedLines page).filter fun line => decide (line.length ≤ maxLineChars)).map
    (fingerprint U lower)).filter (!·.isEmpty)

/-- The pages a fingerprint is counted on. -/
def pagesContaining (pages : List Text) (mark : Text) : Nat :=
  (texts pages).countP fun page => (pageFingerprints U lower page).contains mark

def detectBoilerplate (pages : List Text) : List Text :=
  if (texts pages).length < minPages then []
  else ((texts pages).flatMap (pageFingerprints U lower)).dedup.filter fun mark =>
    decide (threshold pages ≤ pagesContaining U lower pages mark)

/-! ### Removal -/

/-- `_BLANK_RUN_RE.sub`: the newlines after the second of a run are left out. -/
def foldNewlines (run : Nat) : Text → Text
  | [] => []
  | c :: t =>
    if c = '\n' then
      if run < 2 then '\n' :: foldNewlines (run + 1) t else foldNewlines run t
    else c :: foldNewlines 0 t

/-- Whether the loop of `strip_noise` leaves a line out. -/
def dropsLine (boilerplate : List Text) (rawLine : Text) : Bool :=
  let line := Text.strip rawLine
  !line.isEmpty && (isNavigationLine U line || boilerplate.contains (fingerprint U lower line))

def stripNoise (boilerplate : List Text) (text : Text) : Text :=
  if text.isEmpty then text
  else
    let kept := (splitlines text).filter (!dropsLine U lower boilerplate ·)
    Text.strip (foldNewlines 0 (joinLines kept))

def keptLines (boilerplate : List Text) (text : Text) : List Text :=
  (splitlines text).filter (!dropsLine U lower boilerplate ·)

variable {U lower} {boilerplate : List Text}

theorem stripNoise_eq (text : Text) :
    stripNoise U lower boilerplate text =
      Text.strip (foldNewlines 0 (joinLines (keptLines U lower boilerplate text))) := by
  cases text with
  | nil => rfl
  | cons c t => rfl

/-- What counts as boilerplate. -/
theorem mem_detectBoilerplate {pages : List Text} {mark : Text} :
    mark ∈ detectBoilerplate U lower pages ↔
      threshold pages ≤ pagesContaining U lower pages mark := by
  have hthree : 3 ≤ threshold pages := Nat.le_max_left ..
  rw [detectBoilerplate]
  split
  · rename_i hfew
    have hle : pagesContaining U lower pages mark ≤ (texts pages).length := List.countP_le_length
    have hmin : minPages = 3 := rfl
    simp only [List.not_mem_nil, false_iff]
    omega
  · rw [List.mem_filter, List.mem_dedup, decide_eq_true_eq, and_iff_right_iff_imp]
    intro henough
    have hpos : 0 < pagesContaining U lower pages mark := by omega
    obtain ⟨page, hpage, hmark⟩ := List.countP_pos_iff.mp hpos
    exact List.mem_flatMap.mpr ⟨page, hpage, List.contains_iff_mem.mp hmark⟩

def occurs (U : Unicode) (lower : Text → Text) (mark : Text) (page : Text) : Bool :=
  (statedLines page).any fun line => fingerprint U lower line == mark

variable {page t s line : Text}

theorem occurs_of_fingerprints {mark : Text}
    (h : (pageFingerprints U lower page).contains mark = true) :
    occurs U lower mark page = true := by
  obtain ⟨line, hline, rfl⟩ := List.mem_map.mp (List.mem_filter.mp (List.contains_iff_mem.mp h)).1
  exact List.any_eq_true.mpr ⟨line, (List.mem_filter.mp hline).1, beq_self_eq_true _⟩

/-! ### Runs of newlines -/

theorem length_foldNewlines_le (run : Nat) (t : Text) : (foldNewlines run t).length ≤ t.length := by
  induction t generalizing run with
  | nil => exact Nat.le_refl 0
  | cons c t ih =>
    rw [foldNewlines]
    split
    · split
      · exact Nat.succ_le_succ (ih _)
      · exact (ih _).trans (Nat.le_succ _)
    · exact Nat.succ_le_succ (ih _)

variable {run : Nat}

variable {c : Char}

theorem mem_of_foldNewlines (h : c ∈ foldNewlines run t) : c ∈ t := by
  induction t generalizing run with
  | nil => exact h
  | cons d t ih =>
    rw [foldNewlines] at h
    split at h
    · rename_i hnewline
      split at h
      · rw [hnewline]
        exact (List.mem_cons.mp h).elim (fun h => h ▸ List.mem_cons_self)
          fun h => List.mem_cons_of_mem _ (ih h)
      · exact List.mem_cons_of_mem _ (ih h)
    · exact (List.mem_cons.mp h).elim (fun h => h ▸ List.mem_cons_self)
        fun h => List.mem_cons_of_mem _ (ih h)

theorem stated_foldNewlines (blank : Char → Bool) (h : run = 0 ∨ s = []) :
    Lines.stated Ask.isLineBreak blank (s ++ foldNewlines run t) =
      Lines.stated Ask.isLineBreak blank (s ++ t) := by
  induction t generalizing run s with
  | nil => rfl
  | cons c t ih =>
    rw [foldNewlines]
    by_cases hnewline : c = '\n'
    · have hempty (run : Nat) : Lines.stated Ask.isLineBreak blank (foldNewlines run t) =
          Lines.stated Ask.isLineBreak blank t :=
        ih (.inr rfl)
      rw [if_pos hnewline, hnewline, Lines.stated_append_break rfl]
      split
      · rw [Lines.stated_append_break rfl, hempty]
      · obtain rfl : s = [] := h.resolve_left (by omega)
        exact hempty run
    · have hmore : Lines.stated Ask.isLineBreak blank (s ++ [c] ++ foldNewlines 0 t) =
          Lines.stated Ask.isLineBreak blank (s ++ [c] ++ t) :=
        ih (.inl rfl)
      rw [if_neg hnewline]
      simpa using hmore

/-- A text whose runs of newlines are short, after a run. -/
def Folded (run : Nat) (t : Text) : Prop := foldNewlines run t = t

theorem folded_foldNewlines (run : Nat) (t : Text) : Folded run (foldNewlines run t) := by
  rw [Folded]
  induction t generalizing run with
  | nil => rfl
  | cons c t ih =>
    rw [foldNewlines]
    by_cases hnewline : c = '\n'
    · rw [if_pos hnewline]
      split
      · rename_i hshort
        rw [foldNewlines, if_pos rfl, if_pos hshort, ih]
      · exact ih run
    · rw [if_neg hnewline, foldNewlines, if_neg hnewline, ih]

theorem folded_cons :
    Folded run (c :: t) ↔ if c = '\n' then run < 2 ∧ Folded (run + 1) t else Folded 0 t := by
  rw [Folded, foldNewlines]
  by_cases hnewline : c = '\n'
  · rw [if_pos hnewline, if_pos hnewline, hnewline]
    split
    · rename_i hshort
      rw [List.cons.injEq, and_iff_right rfl, and_iff_right hshort, Folded]
    · rename_i hlong
      refine iff_of_false (fun h => ?_) fun h => hlong h.1
      have hlength := length_foldNewlines_le run t
      rw [h, List.length_cons] at hlength
      omega
  · rw [if_neg hnewline, if_neg hnewline, List.cons.injEq, and_iff_right rfl, Folded]

theorem Folded.mono {run' : Nat} (h : Folded run t) (hle : run' ≤ run) : Folded run' t := by
  induction t generalizing run run' with
  | nil => rfl
  | cons c t ih =>
    rw [folded_cons] at h ⊢
    split
    · rename_i hnewline
      rw [if_pos hnewline] at h
      exact ⟨by omega, ih h.2 (Nat.succ_le_succ hle)⟩
    · rename_i hnewline
      rwa [if_neg hnewline] at h

theorem Folded.tail (h : Folded run (c :: t)) : Folded 0 t := by
  rw [folded_cons] at h
  split at h
  · exact h.2.mono (Nat.zero_le _)
  · exact h

theorem Folded.suffix (h : Folded 0 (s ++ t)) : Folded 0 t := by
  induction s with
  | nil => exact h
  | cons c s ih => exact ih h.tail

theorem Folded.left (h : Folded run (s ++ t)) : Folded run s := by
  induction s generalizing run with
  | nil => rfl
  | cons c s ih =>
    rw [List.cons_append, folded_cons] at h
    rw [folded_cons]
    split
    · rename_i hnewline
      rw [if_pos hnewline] at h
      exact ⟨h.1, ih h.2⟩
    · rename_i hnewline
      rw [if_neg hnewline] at h
      exact ih h

theorem Folded.strip (h : Folded 0 t) : Folded 0 (Text.strip t) := by
  obtain ⟨a, b, ht, -, -⟩ := Text.strip_split t
  rw [ht] at h
  exact h.suffix.left

/-! ### Cleaning -/

theorem keptLines_unbroken (text : Text) :
    ∀ line ∈ keptLines U lower boilerplate text, Ask.Unbroken line :=
  fun line hline => Routing.splitlines_unbroken text line (List.mem_filter.mp hline).1

theorem stated_joinLines {blank : Char → Bool} {lines : List Text}
    (h : ∀ line ∈ lines, Ask.Unbroken line) :
    Lines.stated Ask.isLineBreak blank (joinLines lines) =
      (lines.map (Lines.trim blank)).filter (!·.isEmpty) := by
  rw [joinLines, Text.join, Lines.stated_intercalate rfl]
  exact Lines.flatMap_stated h

/-- **The lines that are not dropped stay**, in order and as written, but for the white space at the
ends of the page. -/
theorem stripNoise_written (text : Text) :
    ∃ a b, (∀ c ∈ a, isSpace c = true) ∧ (∀ c ∈ b, isSpace c = true) ∧
      writtenLines (a ++ (stripNoise U lower boilerplate text ++ b)) =
        (writtenLines text).filter (!dropsLine U lower boilerplate ·) := by
  obtain ⟨a, b, hsplit, ha, hb⟩ :=
    Text.strip_split (foldNewlines 0 (joinLines (keptLines U lower boilerplate text)))
  refine ⟨a, b, ha, hb, ?_⟩
  have hfold : Lines.stated Ask.isLineBreak (fun _ => false)
      (foldNewlines 0 (joinLines (keptLines U lower boilerplate text))) =
        Lines.stated Ask.isLineBreak (fun _ => false)
          (joinLines (keptLines U lower boilerplate text)) :=
    stated_foldNewlines (fun _ => false) (s := []) (.inl rfl)
  have hkept : (keptLines U lower boilerplate text).map (Lines.trim fun _ => false) =
      keptLines U lower boilerplate text := by
    rw [funext Lines.trim_never]
    exact List.map_id' _
  rw [stripNoise_eq, ← hsplit, Routing.writtenLines_eq, hfold,
    stated_joinLines (keptLines_unbroken text), hkept, keptLines, writtenLines]
  exact List.filter_comm _ _ _

theorem dropsLine_congr {line' : Text} (h : Text.strip line = Text.strip line') :
    dropsLine U lower boilerplate line = dropsLine U lower boilerplate line' := by
  rw [dropsLine, dropsLine, h]

theorem newlinesOnly_stripNoise (text : Text) :
    Ask.NewlinesOnly (stripNoise U lower boilerplate text) := by
  intro c hc hbreak
  rw [stripNoise_eq] at hc
  obtain ⟨a, b, hsplit, -, -⟩ :=
    Text.strip_split (foldNewlines 0 (joinLines (keptLines U lower boilerplate text)))
  have hfolded : c ∈ foldNewlines 0 (joinLines (keptLines U lower boilerplate text)) := by
    rw [hsplit]
    exact List.mem_append_right _ (List.mem_append_left _ hc)
  rcases Text.mem_join (mem_of_foldNewlines hfolded) with hnewline | ⟨line, hline, hmem⟩
  · exact List.mem_singleton.mp hnewline
  · rw [keptLines_unbroken text line hline c hmem] at hbreak
    cases hbreak

theorem joinLines_splitlines (h : Ask.NewlinesOnly t) (hstrip : Text.strip t = t) :
    joinLines (splitlines t) = t := by
  obtain ⟨run, hrun, hflat⟩ := Ask.flatten_eq_join_chomp (Ask.ended_splitLines h)
  rw [Ask.flatten_splitLines h] at hflat
  have hshort : (Text.strip t).length ≤ (joinLines (splitlines t)).length := by
    conv_lhs => rw [hflat, Text.strip_append_run hrun]
    exact Text.length_strip_le _
  have hlength := congrArg List.length hflat
  rw [List.length_append] at hlength
  have hnone : run = [] := by
    rw [← List.length_eq_zero_iff]
    rw [hstrip] at hshort
    have hsame : (joinLines (splitlines t)).length =
      (Text.join ['\n'] ((Ask.splitLines t).map Ask.chomp)).length := rfl
    omega
  rw [hnone, List.append_nil] at hflat
  exact hflat.symm

theorem statedLines_stripNoise (text : Text) :
    statedLines (stripNoise U lower boilerplate text) =
      ((keptLines U lower boilerplate text).map Text.strip).filter (!·.isEmpty) := by
  have hfold : Lines.stated Ask.isLineBreak isSpace
      (foldNewlines 0 (joinLines (keptLines U lower boilerplate text))) =
        Lines.stated Ask.isLineBreak isSpace (joinLines (keptLines U lower boilerplate text)) :=
    stated_foldNewlines isSpace (s := []) (.inl rfl)
  rw [stripNoise_eq, Routing.statedLines_strip, Routing.statedLines_eq, Routing.said, hfold,
    stated_joinLines (keptLines_unbroken text)]
  rfl

theorem keptLines_stripNoise (text : Text) :
    keptLines U lower boilerplate (stripNoise U lower boilerplate text) =
      splitlines (stripNoise U lower boilerplate text) := by
  refine List.filter_eq_self.mpr fun line hline => ?_
  by_cases hblank : (Text.strip line).isEmpty = true
  · rw [dropsLine, hblank]
    rfl
  · have hstated : Text.strip line ∈ statedLines (stripNoise U lower boilerplate text) :=
      List.mem_filter.mpr ⟨List.mem_map_of_mem hline, by simpa using hblank⟩
    rw [statedLines_stripNoise] at hstated
    obtain ⟨line', hline', hsame⟩ := List.mem_map.mp (List.mem_filter.mp hstated).1
    rw [dropsLine_congr hsame.symm]
    exact (List.mem_filter.mp hline').2

/-- **Cleaning twice is cleaning once.** -/
theorem stripNoise_stripNoise (text : Text) :
    stripNoise U lower boilerplate (stripNoise U lower boilerplate text) =
      stripNoise U lower boilerplate text := by
  have hstrip : Text.strip (stripNoise U lower boilerplate text) =
      stripNoise U lower boilerplate text := by
    rw [stripNoise_eq, Text.strip_strip]
  have hfolded : Folded 0 (stripNoise U lower boilerplate text) := by
    rw [stripNoise_eq]
    exact (folded_foldNewlines 0 _).strip
  have hfold : foldNewlines 0 (stripNoise U lower boilerplate text) =
      stripNoise U lower boilerplate text := hfolded
  rw [stripNoise_eq (stripNoise U lower boilerplate text), keptLines_stripNoise,
    joinLines_splitlines (newlinesOnly_stripNoise text) hstrip, hfold, hstrip]

/-! ### What is removed -/

/-- The lines removed from a page, those a reader navigates by apart. -/
def removedLines (U : Unicode) (lower : Text → Text) (boilerplate : List Text) (page : Text) :
    List Text :=
  (statedLines page).filter fun line =>
    dropsLine U lower boilerplate line && !isNavigationLine U line

/-- What the removal of boilerplate promises of the pages it was found on. -/
structure Conservative (U : Unicode) (lower : Text → Text) (pages : List Text) : Prop where
  short : ∀ page ∈ pages, ∀ line ∈ removedLines U lower (detectBoilerplate U lower pages) page,
    line.length ≤ maxLineChars
  repeated : ∀ page ∈ pages, ∀ line ∈ removedLines U lower (detectBoilerplate U lower pages) page,
    threshold pages ≤ (texts pages).countP (occurs U lower (fingerprint U lower line))
  /-- All other lines are kept, in order, white space at the ends of the page apart. -/
  kept : ∀ page ∈ pages, ∃ a b, (∀ c ∈ a, isSpace c = true) ∧ (∀ c ∈ b, isSpace c = true) ∧
    writtenLines (a ++ (stripNoise U lower (detectBoilerplate U lower pages) page ++ b)) =
      (writtenLines page).filter (!dropsLine U lower (detectBoilerplate U lower pages) ·)
  stable : ∀ page ∈ pages,
    stripNoise U lower (detectBoilerplate U lower pages)
        (stripNoise U lower (detectBoilerplate U lower pages) page) =
      stripNoise U lower (detectBoilerplate U lower pages) page

/-- No long line is spelled like a header: the short lines of its fingerprint stand on too few
pages. -/
def LongLinesApart (U : Unicode) (lower : Text → Text) (pages : List Text) : Prop :=
  ∀ page ∈ pages, ∀ line ∈ statedLines page, maxLineChars < line.length →
    isNavigationLine U line = true ∨
      pagesContaining U lower pages (fingerprint U lower line) < threshold pages

theorem strip_of_stated (h : line ∈ statedLines page) :
    Text.strip line = line ∧ line.isEmpty = false := by
  obtain ⟨hmem, hne⟩ := List.mem_filter.mp h
  obtain ⟨raw, -, rfl⟩ := List.mem_map.mp hmem
  exact ⟨Text.strip_strip raw, by simpa using hne⟩

theorem mem_removedLines {pages : List Text} :
    line ∈ removedLines U lower (detectBoilerplate U lower pages) page ↔
      line ∈ statedLines page ∧ isNavigationLine U line = false ∧
        threshold pages ≤ pagesContaining U lower pages (fingerprint U lower line) := by
  rw [removedLines, List.mem_filter, and_congr_right_iff]
  intro hline
  obtain ⟨hstrip, hne⟩ := strip_of_stated hline
  rw [← mem_detectBoilerplate, dropsLine, hstrip, hne]
  cases isNavigationLine U line <;> simp

/-- **Only boilerplate is removed exactly when no long line is spelled like a header**; that the
rest stays, and cleaning again changes nothing, holds of any pages. -/
theorem conservative_iff (U : Unicode) (lower : Text → Text) (pages : List Text) :
    Conservative U lower pages ↔ LongLinesApart U lower pages := by
  constructor
  · intro h page hpage line hline hlong
    by_cases hnavigation : isNavigationLine U line = true
    · exact .inl hnavigation
    · refine .inr (Nat.lt_of_not_le fun hoften => ?_)
      have hremoved := mem_removedLines.mpr ⟨hline, by simpa using hnavigation, hoften⟩
      exact absurd (h.short page hpage line hremoved) (Nat.not_le_of_lt hlong)
  · intro h
    constructor
    · intro page hpage line hline
      obtain ⟨hstated, hnavigation, hoften⟩ := mem_removedLines.mp hline
      by_contra hlong
      rcases h page hpage line hstated (Nat.lt_of_not_le hlong) with hline | hrare
      · rw [hnavigation] at hline
        cases hline
      · exact absurd hoften (Nat.not_le_of_lt hrare)
    · intro page _ line hline
      obtain ⟨-, -, hoften⟩ := mem_removedLines.mp hline
      exact hoften.trans (List.countP_mono_left fun page _ => occurs_of_fingerprints)
    · exact fun page _ => stripNoise_written page
    · exact fun page _ => stripNoise_stripNoise page

/-- A header's words, and a number longer than a line of a header. -/
def longNumber : Text := "ACME ".toList ++ List.replicate 120 '7'

def widePages : List Text := ["ACME 1".toList, "ACME 2".toList, "ACME 3".toList, longNumber]

theorem widePages_removed : ¬ Conservative Ask.ascii (·.map Char.toLower) widePages := by
  intro h
  have hline : longNumber ∈ removedLines Ask.ascii (·.map Char.toLower)
      (detectBoilerplate Ask.ascii (·.map Char.toLower) widePages) longNumber := by
    decide +kernel
  exact absurd (h.short _ (by simp [widePages]) _ hline) (by decide +kernel)

end QnscKb.Noise
