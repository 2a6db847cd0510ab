import QnscKb.Ask.SentinelLines
import QnscKb.Chunking.Lossless

/-!
# Restructure — Chunks

The chunks a formatted document is reviewed in (`split_into_chunks` and `_chunk_heading_count` of
`src/domain/content_restructure.py`).
-/

namespace QnscKb.Restructure

open QnscKb.Routing (splitlines joinLines titled)
open QnscKb.Ask (NewlinesOnly)
open QnscKb.Chunking (ink_joinLines ink_splitlines ink_strip)
open Ink (Seamed ink)
open Text (isSpace)

/-! ### The loop -/

/-- `^\s*(```|~~~)`. -/
def togglesFence (line : Text) : Bool :=
  "```".toList.isPrefixOf (Text.lstrip line) || "~~~".toList.isPrefixOf (Text.lstrip line)

/-- `_CHUNK_HEADING_PATTERN`, `^#{2,3}(?!#)\s+\S`. -/
def opensChunk (line : Text) : Bool :=
  let marks := (line.takeWhile (· == '#')).length
  (marks == 2 || marks == 3) && titled (line.drop marks)

def fenceAfter (inFence : Bool) (line : Text) : Bool :=
  if togglesFence line then !inFence else inFence

def textOf (current : List Text) : Text := Text.strip (joinLines current)

/-- The loop of `split_into_chunks`, from the lines of the open chunk on. -/
def chunksFrom (inFence : Bool) (current : List Text) : List Text → List Text
  | [] => if (textOf current).isEmpty then [] else [textOf current]
  | line :: lines =>
    if (!fenceAfter inFence line && opensChunk line) && !(textOf current).isEmpty then
      textOf current :: chunksFrom (fenceAfter inFence line) [line] lines
    else chunksFrom (fenceAfter inFence line) (current ++ [line]) lines

def splitIntoChunks (markdown : Text) : List Text :=
  if (Text.strip markdown).isEmpty then [] else chunksFrom false [] (splitlines markdown)

/-- The loop of `_chunk_heading_count`. -/
def headingCountFrom (inFence : Bool) : List Text → Nat
  | [] => 0
  | line :: lines =>
    if togglesFence line then headingCountFrom (!inFence) lines
    else if !inFence && opensChunk line then headingCountFrom inFence lines + 1
    else headingCountFrom inFence lines

def chunkHeadingCount (markdown : Text) : Nat := headingCountFrom false (splitlines markdown)

/-! ### Lines and headings -/

/-- Lines, each with whether it is a chunk heading outside code fences. -/
def markedFrom (inFence : Bool) : List Text → List (Text × Bool)
  | [] => []
  | line :: lines =>
    (line, !fenceAfter inFence line && opensChunk line) ::
      markedFrom (fenceAfter inFence line) lines

def marked (markdown : Text) : List (Text × Bool) := markedFrom false (splitlines markdown)

def headings (lines : List (Text × Bool)) : List (Text × Bool) := lines.filter (·.2)

theorem headings_cons (l : Text × Bool) (ls : List (Text × Bool)) :
    headings (l :: ls) = if l.2 then l :: headings ls else headings ls :=
  List.filter_cons

def groupText (group : List (Text × Bool)) : Text := textOf (group.map (·.1))

variable {line : Text}

theorem opensChunk_marks (h : opensChunk line = true) : ∃ rest, line = '#' :: '#' :: rest := by
  have hmarks : 2 ≤ (line.takeWhile (· == '#')).length := by
    simp only [opensChunk, Bool.and_eq_true, Bool.or_eq_true, beq_iff_eq] at h
    omega
  match line, hmarks with
  | [], h => simp at h
  | [c], h =>
    rw [List.takeWhile_cons] at h
    split at h <;> simp at h
  | c :: d :: rest, h =>
    by_cases hc : c = '#'
    · by_cases hd : d = '#'
      · exact ⟨rest, by rw [hc, hd]⟩
      · simp [hc, hd] at h
    · simp [hc] at h

theorem opensChunk_of_togglesFence (h : togglesFence line = true) : opensChunk line = false := by
  rw [← Bool.not_eq_true]
  intro hopens
  obtain ⟨rest, rfl⟩ := opensChunk_marks hopens
  exact absurd h (by simp [togglesFence, Text.lstrip, isSpace])

theorem headingCountFrom_eq (inFence : Bool) (lines : List Text) :
    headingCountFrom inFence lines = (headings (markedFrom inFence lines)).length := by
  induction lines generalizing inFence with
  | nil => rfl
  | cons line lines ih =>
    rw [headingCountFrom, markedFrom, headings_cons, fenceAfter]
    cases hfence : togglesFence line with
    | true => simpa [opensChunk_of_togglesFence hfence] using ih (!inFence)
    | false =>
      cases hheading : !inFence && opensChunk line with
      | true => simpa [hheading] using ih inFence
      | false => simpa [hheading] using ih inFence

theorem opensChunk_of_marked {inFence : Bool} {lines : List Text} {l : Text × Bool}
    (h : l ∈ markedFrom inFence lines) (hmark : l.2 = true) : opensChunk l.1 = true := by
  induction lines generalizing inFence with
  | nil => cases h
  | cons line lines ih =>
    rcases List.mem_cons.mp h with rfl | h
    · exact (Bool.and_eq_true_iff.mp hmark).2
    · exact ih h

/-! ### Blank lines -/

def isBlankLine (line : Text) : Bool := (Text.strip line).isEmpty

theorem isEmpty_iff_ink (t : Text) : (Text.strip t).isEmpty = true ↔ ink isSpace t = [] := by
  rw [List.isEmpty_iff, Text.strip_nil_iff, Ink.ink_eq_nil_iff]

theorem textOf_isEmpty (current : List Text) :
    (textOf current).isEmpty = current.all isBlankLine := by
  rw [Bool.eq_iff_iff, textOf, isEmpty_iff_ink, ink_joinLines, List.flatMap_eq_nil_iff,
    List.all_eq_true]
  exact forall₂_congr fun line _ => (isEmpty_iff_ink line).symm

theorem not_blank_of_opensChunk (h : opensChunk line = true) : isBlankLine line = false := by
  obtain ⟨rest, rfl⟩ := opensChunk_marks h
  rw [← Bool.not_eq_true, isBlankLine, isEmpty_iff_ink,
    Ink.ink_cons_of_not (by rfl)]
  exact List.cons_ne_nil _ _

theorem splitIntoChunks_eq (markdown : Text) :
    splitIntoChunks markdown = chunksFrom false [] (splitlines markdown) := by
  rw [splitIntoChunks]
  split
  · rename_i hblank
    have hlines : ∀ line ∈ splitlines markdown, isBlankLine line = true := by
      intro line hline
      rw [isEmpty_iff_ink, ← ink_splitlines, List.flatMap_eq_nil_iff] at hblank
      exact (isEmpty_iff_ink line).mpr (hblank line hline)
    suffices h : ∀ (lines current : List Text) (inFence : Bool),
        (∀ line ∈ current ++ lines, isBlankLine line = true) →
          chunksFrom inFence current lines = [] from
      (h _ [] false hlines).symm
    intro lines
    induction lines with
    | nil =>
      intro current inFence h
      rw [chunksFrom, textOf_isEmpty, if_pos (by simpa using h)]
    | cons line lines ih =>
      intro current inFence h
      have hcurrent : (textOf current).isEmpty = true := by
        rw [textOf_isEmpty, List.all_eq_true]
        exact fun l hl => h l (List.mem_append_left _ hl)
      rw [chunksFrom, hcurrent, Bool.not_true, Bool.and_false]
      exact ih _ _ (by simpa using h)
  · rfl

theorem seamed_strip {ts : List Text} {t rest : Text} (h : Seamed isSpace ts rest) :
    Seamed isSpace (Text.strip t :: ts) (t ++ rest) := by
  obtain ⟨a, b, ht, ha, hb⟩ := Text.strip_split t
  have hsplit : t ++ rest = a ++ Text.strip t ++ (b ++ rest) := by
    conv_lhs => rw [ht]
    simp only [List.append_assoc]
  rw [hsplit]
  exact .next ha (h.prepend hb)

theorem joinLines_append {ls ls' : List Text} (h : ls ≠ []) (h' : ls' ≠ []) :
    joinLines (ls ++ ls') = joinLines ls ++ ('\n' :: joinLines ls') := by
  induction ls with
  | nil => exact absurd rfl h
  | cons l ls ih =>
    cases ls with
    | nil =>
      obtain ⟨l', ls', rfl⟩ := List.exists_cons_of_ne_nil h'
      simp [joinLines, Text.join]
    | cons next ls =>
      have hrest := ih (List.cons_ne_nil next ls)
      simp only [joinLines, List.cons_append, Text.join_cons_cons] at hrest ⊢
      rw [hrest]
      simp

/-- **The chunks are the lines**, but for white space where one ends and the next begins. -/
theorem seamed_chunksFrom (inFence : Bool) (current lines : List Text) :
    Seamed isSpace (chunksFrom inFence current lines) (joinLines (current ++ lines)) := by
  induction lines generalizing inFence current with
  | nil =>
    rw [chunksFrom, List.append_nil]
    split
    · rename_i hblank
      exact .last (Text.strip_nil_iff.mp (List.isEmpty_iff.mp hblank))
    · have hend : Seamed isSpace [] ([] : Text) := .last (List.forall_mem_nil _)
      simpa [textOf] using seamed_strip (t := joinLines current) hend
  | cons line lines ih =>
    rw [chunksFrom]
    split
    · rename_i hstarts
      have hcurrent : current ≠ [] := by
        rintro rfl
        exact absurd (Bool.and_eq_true_iff.mp hstarts).2 (by decide)
      rw [joinLines_append hcurrent (List.cons_ne_nil _ _)]
      have hnewline : ∀ c ∈ ['\n'], isSpace c = true := Ask.isSpace_newline
      exact seamed_strip ((ih _ [line]).prepend hnewline)
    · have hlines := ih (fenceAfter inFence line) (current ++ [line])
      rwa [List.append_assoc, List.singleton_append] at hlines

/-! ### Groups of lines -/

/-- The lines of each chunk, from those of the open one on. -/
def groupsFrom (current : List (Text × Bool)) : List (Text × Bool) → List (List (Text × Bool))
  | [] => [current]
  | l :: ls =>
    if l.2 && !(groupText current).isEmpty then current :: groupsFrom [l] ls
    else groupsFrom (current ++ [l]) ls

/-- The chunks are the texts of groups of lines. -/
theorem chunksFrom_groups (inFence : Bool) (current : List (Text × Bool)) (lines : List Text) :
    chunksFrom inFence (current.map (·.1)) lines =
      ((groupsFrom current (markedFrom inFence lines)).map groupText).filter (!·.isEmpty) := by
  induction lines generalizing inFence current with
  | nil =>
    rw [chunksFrom, markedFrom, groupsFrom]
    cases hblank : (groupText current).isEmpty <;> simp [groupText] at hblank <;>
      simp [groupText, hblank]
  | cons line lines ih =>
    rw [chunksFrom, markedFrom, groupsFrom, groupText]
    split
    · rename_i hstarts
      have hnonempty : (!(groupText current).isEmpty) = true :=
        (Bool.and_eq_true_iff.mp hstarts).2
      rw [List.map_cons, List.filter_cons, if_pos hnonempty, ← ih]
      rfl
    · rw [← ih, List.map_append]
      rfl

theorem flatten_groupsFrom (current ls : List (Text × Bool)) :
    (groupsFrom current ls).flatten = current ++ ls := by
  induction ls generalizing current with
  | nil => simp [groupsFrom]
  | cons l ls ih =>
    rw [groupsFrom]
    split
    · rw [List.flatten_cons, ih, List.singleton_append]
    · rw [ih, List.append_assoc, List.singleton_append]

theorem groupsFrom_shape (current ls : List (Text × Bool)) :
    ∃ more rest, groupsFrom current ls = (current ++ more) :: rest ∧
      ∀ group ∈ rest, ∃ line lines, group = (line, true) :: lines := by
  induction ls generalizing current with
  | nil => exact ⟨[], [], by rw [groupsFrom, List.append_nil], List.forall_mem_nil _⟩
  | cons l ls ih =>
    rw [groupsFrom]
    split
    · rename_i hstarts
      obtain ⟨more, rest, hgroups, hrest⟩ := ih [l]
      obtain ⟨line, mark⟩ := l
      obtain rfl : mark = true := (Bool.and_eq_true_iff.mp hstarts).1
      refine ⟨[], _, by rw [List.append_nil], ?_⟩
      rw [hgroups]
      exact List.forall_mem_cons.mpr ⟨⟨line, more, rfl⟩, hrest⟩
    · obtain ⟨more, rest, hgroups, hrest⟩ := ih (current ++ [l])
      exact ⟨l :: more, rest, by rw [hgroups, List.append_assoc, List.singleton_append], hrest⟩

theorem groupText_isEmpty (group : List (Text × Bool)) :
    (groupText group).isEmpty = group.all fun l => isBlankLine l.1 := by
  rw [groupText, textOf_isEmpty, List.all_map]
  rfl

def Headed (ls : List (Text × Bool)) : Prop := ∀ l ∈ ls, l.2 = true → isBlankLine l.1 = false

theorem headed_marked (inFence : Bool) (lines : List Text) : Headed (markedFrom inFence lines) :=
  fun _ hl hmark => not_blank_of_opensChunk (opensChunk_of_marked hl hmark)

variable {ls : List (Text × Bool)}

theorem headings_of_blank (h : Headed ls) (hblank : (groupText ls).isEmpty = true) :
    headings ls = [] := by
  rw [groupText_isEmpty, List.all_eq_true] at hblank
  refine List.filter_eq_nil_iff.mpr fun l hl hmark => ?_
  have hline := hblank l hl
  rw [h l hl hmark] at hline
  cases hline

theorem headings_append (ls ls' : List (Text × Bool)) :
    headings (ls ++ ls') = headings ls ++ headings ls' :=
  List.filter_append ..

/-- **No group has two headings.** -/
theorem headings_groupsFrom {current : List (Text × Bool)} (h : Headed (current ++ ls))
    (hcurrent : (headings current).length ≤ 1) :
    ∀ group ∈ groupsFrom current ls, (headings group).length ≤ 1 := by
  induction ls generalizing current with
  | nil => simpa [groupsFrom] using hcurrent
  | cons l ls ih =>
    have hheaded : Headed (current ++ [l] ++ ls) := by simpa using h
    rw [groupsFrom]
    split
    · refine List.forall_mem_cons.mpr ⟨hcurrent, ih (fun l' hl' => ?_) ?_⟩
      · exact h l' (List.mem_append_right _ hl')
      · exact List.length_filter_le _ _
    · rename_i hstays
      refine ih hheaded ?_
      rw [headings_append, List.length_append]
      cases hmark : l.2 with
      | false => simpa [headings, hmark] using hcurrent
      | true =>
        -- A heading goes on with the open group only while that is blank.
        have hblank : (groupText current).isEmpty = true := by simpa [hmark] using hstays
        rw [headings_of_blank (fun l' hl' => h l' (List.mem_append_left _ hl')) hblank]
        exact (Nat.zero_add _).le.trans (List.length_filter_le _ _)

/-! ### How many -/

def firstLine (ls : List (Text × Bool)) : Option (Text × Bool) :=
  ls.find? fun l => !isBlankLine l.1

theorem length_chunksFrom_open {current : List Text} (h : (textOf current).isEmpty = false)
    (inFence : Bool) (lines : List Text) :
    (chunksFrom inFence current lines).length =
      (headings (markedFrom inFence lines)).length + 1 := by
  induction lines generalizing inFence current with
  | nil => simp [chunksFrom, h, markedFrom, headings]
  | cons line lines ih =>
    rw [chunksFrom, markedFrom, headings_cons, h]
    split
    · rename_i hstarts
      have hheading : (!fenceAfter inFence line && opensChunk line) = true :=
        (Bool.and_eq_true_iff.mp hstarts).1
      have hline : (textOf [line]).isEmpty = false := by
        rw [textOf_isEmpty, List.all_cons,
          not_blank_of_opensChunk (Bool.and_eq_true_iff.mp hheading).2, Bool.false_and]
      rw [List.length_cons, ih hline, if_pos hheading, List.length_cons]
    · rename_i hstays
      have hheading : (!fenceAfter inFence line && opensChunk line) = false := by
        simpa using hstays
      have hmore : (textOf (current ++ [line])).isEmpty = false := by
        rw [textOf_isEmpty] at h ⊢
        rw [List.all_append, h, Bool.false_and]
      rw [ih hmore, hheading]
      rfl

theorem length_chunksFrom_blank {current : List Text} (h : (textOf current).isEmpty = true)
    (inFence : Bool) (lines : List Text) :
    (chunksFrom inFence current lines).length =
      (headings (markedFrom inFence lines)).length +
        (if (firstLine (markedFrom inFence lines)).all (·.2) then 0 else 1) := by
  induction lines generalizing inFence current with
  | nil => simp [chunksFrom, h, markedFrom, headings, firstLine]
  | cons line lines ih =>
    rw [chunksFrom, markedFrom, headings_cons, h, Bool.not_true, Bool.and_false,
      if_neg Bool.false_ne_true, firstLine, List.find?_cons]
    cases hblank : isBlankLine line with
    | true =>
      have hheading : opensChunk line = false := by
        rw [← Bool.not_eq_true]
        intro hopens
        rw [not_blank_of_opensChunk hopens] at hblank
        cases hblank
      have hmore : (textOf (current ++ [line])).isEmpty = true := by
        rw [textOf_isEmpty] at h ⊢
        rw [List.all_append, h, List.all_cons, hblank]
        rfl
      rw [ih hmore, hheading, Bool.and_false]
      rfl
    | false =>
      have hmore : (textOf (current ++ [line])).isEmpty = false := by
        rw [textOf_isEmpty, List.all_append, List.all_cons, hblank, Bool.false_and,
          Bool.and_false]
      rw [length_chunksFrom_open hmore]
      cases hheading : !fenceAfter inFence line && opensChunk line <;> simp

/-! ### The chunks of a document -/

/-- Groups of the lines of a document that its chunks are the texts of, cut at its headings. -/
structure Aligned (markdown : Text) (groups : List (List (Text × Bool))) : Prop where
  lines : groups.flatten = marked markdown
  chunks : splitIntoChunks markdown = (groups.map groupText).filter (!·.isEmpty)
  /-- Every group after the first begins with a chunk heading outside code fences. -/
  opened : ∀ group ∈ groups.tail, ∃ line lines, group = (line, true) :: lines
  single : ∀ group ∈ groups, (headings group).length ≤ 1
  /-- The text before the first heading is in that heading's group. -/
  preamble : headings (marked markdown) ≠ [] → ∀ group ∈ groups.head?, headings group ≠ []

/-- What chunking promises. -/
structure Faithful (markdown : Text) : Prop where
  /-- The chunks are the lines of the document, but for white space at the seams. -/
  lossless : Seamed isSpace (splitIntoChunks markdown) (joinLines (splitlines markdown))
  /-- They are the document itself when its lines end in newlines. -/
  verbatim : NewlinesOnly markdown → Seamed isSpace (splitIntoChunks markdown) markdown
  begins : ∀ chunk ∈ (splitIntoChunks markdown).tail, "##".toList <+: chunk
  aligned : ∃ groups, Aligned markdown groups
  counted : (splitIntoChunks markdown).length = chunkHeadingCount markdown

/-- The first line of the document that is not blank, if any, is a chunk heading. -/
def opensWithHeading (markdown : Text) : Bool := (firstLine (marked markdown)).all (·.2)

theorem seamed_chunks (markdown : Text) :
    Seamed isSpace (splitIntoChunks markdown) (joinLines (splitlines markdown)) := by
  rw [splitIntoChunks_eq]
  exact seamed_chunksFrom false [] (splitlines markdown)

theorem seamed_document {markdown : Text} (h : NewlinesOnly markdown) :
    Seamed isSpace (splitIntoChunks markdown) markdown := by
  obtain ⟨run, hrun, hflat⟩ := Ask.flatten_eq_join_chomp (Ask.ended_splitLines h)
  rw [Ask.flatten_splitLines h] at hflat
  have hseamed := (seamed_chunks markdown).append hrun
  rwa [joinLines, splitlines, ← hflat] at hseamed

theorem length_splitIntoChunks (markdown : Text) :
    (splitIntoChunks markdown).length =
      chunkHeadingCount markdown + if opensWithHeading markdown then 0 else 1 := by
  have hblank : (textOf []).isEmpty = true := rfl
  rw [splitIntoChunks_eq, length_chunksFrom_blank hblank, chunkHeadingCount, headingCountFrom_eq]
  rfl

theorem marks_prefix_strip {t : Text} : "##".toList <+: Text.strip ('#' :: '#' :: t) := by
  obtain ⟨run, hrun, ht⟩ := Text.rstrip_prefix ('#' :: '#' :: t)
  have hstrip : Text.strip ('#' :: '#' :: t) = Text.rstrip ('#' :: '#' :: t) := rfl
  rw [hstrip]
  match hback : Text.rstrip ('#' :: '#' :: t) with
  | [] =>
    rw [hback, List.nil_append] at ht
    exact absurd (hrun '#' (ht ▸ List.mem_cons_self)) (by decide)
  | [c] =>
    rw [hback, List.singleton_append] at ht
    have hmark : '#' ∈ run := (List.cons.inj ht).2 ▸ List.mem_cons_self
    exact absurd (hrun '#' hmark) (by decide)
  | c :: d :: rest =>
    rw [hback] at ht
    obtain ⟨hc, ht⟩ := List.cons.inj ht
    obtain ⟨hd, -⟩ := List.cons.inj ht
    rw [← hc, ← hd]
    exact List.prefix_append "##".toList rest

theorem marks_prefix_groupText (h : opensChunk line = true) (lines : List (Text × Bool)) :
    "##".toList <+: groupText ((line, true) :: lines) := by
  obtain ⟨rest, rfl⟩ := opensChunk_marks h
  have hjoin : ∃ t, joinLines (((('#' :: '#' :: rest : Text), true) :: lines).map (·.1)) =
      '#' :: '#' :: t := by
    cases lines with
    | nil => exact ⟨rest, by simp [joinLines, Text.join]⟩
    | cons next lines =>
      exact ⟨_, rfl⟩
  obtain ⟨t, ht⟩ := hjoin
  rw [groupText, textOf, ht]
  exact marks_prefix_strip

def groups (markdown : Text) : List (List (Text × Bool)) := groupsFrom [] (marked markdown)

theorem splitIntoChunks_groups (markdown : Text) :
    splitIntoChunks markdown = ((groups markdown).map groupText).filter (!·.isEmpty) := by
  rw [splitIntoChunks_eq, groups, marked, ← chunksFrom_groups]
  rfl

theorem headings_first (h : Headed ls) (hopens : (firstLine ls).all (·.2) = true)
    (hne : headings ls ≠ []) {current : List (Text × Bool)}
    (hcurrent : (groupText current).isEmpty = true) :
    ∀ group ∈ (groupsFrom current ls).head?, headings group ≠ [] := by
  induction ls generalizing current with
  | nil => exact absurd rfl hne
  | cons l ls ih =>
    have hrest : Headed ls := fun l' hl' => h l' (List.mem_cons_of_mem l hl')
    rw [groupsFrom, hcurrent, Bool.not_true, Bool.and_false, if_neg Bool.false_ne_true]
    cases hblank : isBlankLine l.1 with
    | true =>
      have hmark : l.2 = false := by
        by_contra hmark
        rw [h l List.mem_cons_self (by simpa using hmark)] at hblank
        cases hblank
      rw [firstLine, List.find?_cons, hblank] at hopens
      rw [headings_cons, hmark] at hne
      refine ih hrest hopens hne ?_
      rw [groupText_isEmpty] at hcurrent ⊢
      simp [hcurrent, hblank]
    | false =>
      rw [firstLine, List.find?_cons, hblank] at hopens
      obtain ⟨more, rest, hgroups, -⟩ := groupsFrom_shape (current ++ [l]) ls
      have hmark : l.2 = true := hopens
      intro group hgroup
      rw [hgroups, List.head?_cons, Option.mem_some_iff] at hgroup
      rw [← hgroup, headings_append, headings_append, headings_cons, hmark]
      simp

theorem aligned_groups {markdown : Text} (h : opensWithHeading markdown = true) :
    Aligned markdown (groups markdown) where
  lines := flatten_groupsFrom [] (marked markdown)
  chunks := splitIntoChunks_groups markdown
  opened := by
    obtain ⟨more, rest, hgroups, hrest⟩ := groupsFrom_shape [] (marked markdown)
    rw [groups, hgroups]
    exact hrest
  single := headings_groupsFrom (headed_marked false _) (Nat.zero_le _)
  preamble := fun hne => headings_first (headed_marked false _) h hne rfl

theorem begins_chunks (markdown : Text) :
    ∀ chunk ∈ (splitIntoChunks markdown).tail, "##".toList <+: chunk := by
  obtain ⟨more, rest, hgroups, hrest⟩ := groupsFrom_shape [] (marked markdown)
  have hmarks : ∀ chunk ∈ rest.map groupText, "##".toList <+: chunk := by
    intro chunk hchunk
    obtain ⟨group, hgroup, rfl⟩ := List.mem_map.mp hchunk
    obtain ⟨line, lines, rfl⟩ := hrest group hgroup
    have hline : (line, true) ∈ marked markdown := by
      have hflat := flatten_groupsFrom [] (marked markdown)
      rw [List.nil_append, hgroups] at hflat
      rw [← hflat]
      exact List.mem_flatten_of_mem (List.mem_cons_of_mem _ hgroup) List.mem_cons_self
    exact marks_prefix_groupText (opensChunk_of_marked hline rfl) lines
  have htail : (splitIntoChunks markdown).tail.Sublist (rest.map groupText) := by
    rw [splitIntoChunks_groups, groups, hgroups, List.map_cons, List.filter_cons]
    split
    · exact List.filter_sublist
    · exact (List.tail_sublist _).trans List.filter_sublist
  exact fun chunk hchunk => hmarks chunk (htail.subset hchunk)

/-- **Chunking keeps its promise exactly when the document opens with a chunk heading**, or is
blank: a preamble is made a chunk of its own. -/
theorem faithful_iff (markdown : Text) : Faithful markdown ↔ opensWithHeading markdown = true := by
  constructor
  · intro h
    have hlength := h.counted
    rw [length_splitIntoChunks] at hlength
    by_contra hopens
    rw [if_neg hopens] at hlength
    omega
  · intro h
    have hlength := length_splitIntoChunks markdown
    rw [if_pos h] at hlength
    exact {
      lossless := seamed_chunks markdown
      verbatim := seamed_document
      begins := begins_chunks markdown
      aligned := ⟨groups markdown, aligned_groups h⟩
      counted := hlength }

/-- A title line before the first section. -/
theorem title_unfaithful : ¬ Faithful "# Manual
## Controls
Version 1.2".toList := by
  intro h
  exact absurd h.counted (by decide)

end QnscKb.Restructure
