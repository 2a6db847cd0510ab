import QnscKb.Routing.Partition

/-!
# Mcp — Article sections

The sections `get_article_sections` cuts a body into (`_article_sections`,
`src/domain/mcp_tools.py`).  A section begins at a heading of level two to six; a fence line turns
one flag, whichever of the two marks it has.
-/

namespace QnscKb.Mcp

open Lines (trimEnds)
open Routing (splitlines joinLines exactLines inkedLines titled exactLines_strip
  exactLines_joinLines exactLines_of_blank flatten_inkedLines)
open Text (isSpace lstrip rstrip strip)

/-- `^\s*(```|~~~)`: the mark of a line that opens or closes a fenced block. -/
def fenceMark (line : Text) : Option Char :=
  match lstrip line with
  | '`' :: '`' :: '`' :: _ => some '`'
  | '~' :: '~' :: '~' :: _ => some '~'
  | _ => none

/-- `\s*#*\s*$`, what follows the text of a heading. -/
def closes (t : Text) : Bool := ((lstrip t).dropWhile (· == '#')).all isSpace

/-- `\S.*?`, as far as the end of the pattern leaves it. -/
def titleFrom : Text → Text
  | [] => []
  | c :: t => if closes t then [c] else c :: titleFrom t

/-- `_SECTION_HEADING.match`: the level and the text of a heading. -/
def sectionHeading (line : Text) : Option (Nat × Text) :=
  let indent := line.takeWhile isSpace
  let marks := (line.drop indent.length).takeWhile (· == '#')
  let after := line.drop (indent.length + marks.length)
  if indent.length ≤ 3 ∧ 2 ≤ marks.length ∧ marks.length ≤ 6 ∧ titled after = true then
    some (marks.length, strip (titleFrom (lstrip after)))
  else none

/-! ### The loop -/

structure ArticleSection where
  index : Nat
  heading : Option Text
  level : Nat
  bodyMd : Text
  deriving DecidableEq

/-- The variables of the loop. -/
structure SectionLoop where
  sections : List ArticleSection := []
  current : List Text := []
  heading : Option Text := none
  level : Nat := 0
  inFence : Bool := false
  seenBoundary : Bool := false

namespace SectionLoop

def ended (s : SectionLoop) : ArticleSection :=
  ⟨s.sections.length + 1, s.heading, s.level, strip (joinLines s.current)⟩

/-- `if current and seen_boundary`. -/
def flush (s : SectionLoop) : SectionLoop :=
  if s.current ≠ [] ∧ s.seenBoundary = true then
    { s with sections := s.sections ++ [s.ended], current := [] }
  else s

/-- `if current_heading is None or not current`. -/
def named (level : Nat) (title : Text) (s : SectionLoop) : SectionLoop :=
  if s.heading = none ∨ s.current = [] then { s with heading := some title, level } else s

def step (s : SectionLoop) (line : Text) : SectionLoop :=
  let inFence := s.inFence ^^ (fenceMark line).isSome
  match if inFence then none else sectionHeading line with
  | none => { s with inFence, current := s.current ++ [line] }
  | some (level, title) =>
    let s := s.flush.named level title
    { s with inFence, seenBoundary := true, current := s.current ++ [line] }

end SectionLoop

def articleSections (markdown : Text) : List ArticleSection :=
  let s := (splitlines markdown).foldl SectionLoop.step {}
  let sections :=
    if s.current ≠ [] ∧ strip (joinLines s.current) ≠ [] then s.sections ++ [s.ended]
    else s.sections
  if sections = [] ∧ strip markdown ≠ [] then [⟨1, none, 0, strip markdown⟩] else sections

/-! ### Headings -/

variable {c : Char}

theorem closes_cons (hc : isSpace c = true) (t : Text) : closes (c :: t) = closes t := by
  rw [closes, lstrip, List.dropWhile_cons_of_pos hc, closes, lstrip]

theorem titleFrom_prefix (t : Text) : titleFrom t <+: t := by
  induction t with
  | nil => exact List.prefix_rfl
  | cons c t ih =>
    rw [titleFrom]
    split_ifs
    · exact List.prefix_append [c] t
    · exact List.cons_prefix_cons.mpr ⟨rfl, ih⟩

variable {t line title : Text}

theorem titleFrom_last (h : closes t = false) :
    ∃ front c, titleFrom t = front ++ [c] ∧ isSpace c = false := by
  induction t with
  | nil => exact absurd h (by decide)
  | cons c t ih =>
    rw [titleFrom]
    split_ifs with hcloses
    · refine ⟨[], c, rfl, ?_⟩
      by_contra hc
      rw [closes_cons (by simpa using hc), hcloses] at h
      cases h
    · obtain ⟨front, d, hfront, hd⟩ := ih (by simpa using hcloses)
      exact ⟨c :: front, d, by rw [hfront]; rfl, hd⟩

theorem titleFrom_cons (hc : isSpace c = false) (t : Text) :
    ∃ front d, titleFrom (c :: t) = front ++ [d] ∧ isSpace d = false ∧
      strip (titleFrom (c :: t)) = titleFrom (c :: t) := by
  have hlast : ∃ front d, titleFrom (c :: t) = front ++ [d] ∧ isSpace d = false := by
    rw [titleFrom]
    split_ifs with hcloses
    · exact ⟨[], c, rfl, hc⟩
    · obtain ⟨front, d, hfront, hd⟩ := titleFrom_last (by simpa using hcloses : closes t = false)
      exact ⟨c :: front, d, by rw [hfront]; rfl, hd⟩
  obtain ⟨front, d, hfront, hd⟩ := hlast
  refine ⟨front, d, hfront, hd, Text.strip_eq_self (fun e he => ?_) fun e he => ?_⟩
  · have hhead : (titleFrom (c :: t)).head? = some c := by
      rw [titleFrom]
      split_ifs <;> rfl
    rw [hhead] at he
    rw [← Option.some.inj he, hc]
  · rw [hfront, List.getLast?_concat] at he
    rw [← Option.some.inj he, hd]

variable {level : Nat}

theorem sectionHeading_split (h : sectionHeading line = some (level, title)) :
    ∃ indent gap rest front c, line = indent ++ (List.replicate level '#' ++ (gap ++ (title ++ rest))) ∧
      (∀ c ∈ indent, isSpace c = true) ∧ 2 ≤ level ∧ gap ≠ [] ∧ (∀ c ∈ gap, isSpace c = true) ∧
        title = front ++ [c] ∧ isSpace c = false := by
  rw [sectionHeading] at h
  split_ifs at h with hmatch
  obtain ⟨-, hlow, -, htitled⟩ := hmatch
  obtain ⟨rfl, rfl⟩ := Prod.mk.inj (Option.some.inj h)
  have hindent : line = line.takeWhile isSpace ++ line.drop (line.takeWhile isSpace).length :=
    (List.prefix_iff_eq_append.mp (List.takeWhile_prefix _)).symm
  have hspace : ∀ c ∈ line.takeWhile isSpace, isSpace c = true := fun c hc =>
    List.mem_takeWhile_imp hc
  generalize line.takeWhile isSpace = indent at *
  rw [← List.drop_drop] at htitled ⊢
  generalize line.drop indent.length = marked at *
  have hmarks : marked = marked.takeWhile (· == '#') ++
      marked.drop (marked.takeWhile (· == '#')).length :=
    (List.prefix_iff_eq_append.mp (List.takeWhile_prefix _)).symm
  have hsame : marked.takeWhile (· == '#') =
      List.replicate (marked.takeWhile (· == '#')).length '#' :=
    List.eq_replicate_of_mem fun c hc => by simpa using List.mem_takeWhile_imp hc
  generalize marked.takeWhile (· == '#') = marks at *
  generalize marked.drop marks.length = after at *
  obtain ⟨hgap, htext⟩ := Bool.and_eq_true_iff.mp htitled
  obtain ⟨c, t, hcons⟩ : ∃ c t, lstrip after = c :: t :=
    List.exists_cons_of_ne_nil fun hnil => by rw [hnil] at htext; cases htext
  have hc : isSpace c = false := by
    have hstop := List.head?_dropWhile_not isSpace after
    rw [← lstrip, hcons] at hstop
    simpa using hstop
  obtain ⟨front, d, hfront, hd, hstrip⟩ := titleFrom_cons hc t
  obtain ⟨rest, hrest⟩ := titleFrom_prefix (c :: t)
  have hafter : after = after.takeWhile isSpace ++ (titleFrom (c :: t) ++ rest) := by
    rw [hrest, ← hcons]
    exact List.takeWhile_append_dropWhile.symm
  refine ⟨indent, after.takeWhile isSpace, rest, front, d, ?_, hspace, hlow, ?_,
    fun e he => List.mem_takeWhile_imp he, ?_, hd⟩
  · rw [hcons, hstrip, ← hafter, ← hsame, ← hmarks, ← hindent]
  · intro hnil
    cases after with
    | nil => cases hgap
    | cons e after =>
      rw [List.takeWhile_cons_of_pos (by simpa using hgap)] at hnil
      cases hnil
  · rw [hcons, hstrip, hfront]

theorem prefix_rstrip {front : Text} (hc : isSpace c = false) (h : front ++ [c] <+: t) :
    front ++ [c] <+: rstrip t := by
  obtain ⟨rest, rfl⟩ := h
  have hkept : [c] <+: rstrip ([c] ++ rest) := by
    by_cases hblank : ∀ d ∈ rest, isSpace d = true
    · have hone : rstrip [c] = [c] := by simp [rstrip, hc]
      exact ⟨[], by rw [Text.rstrip_append_run hblank, hone, List.append_nil]⟩
    · rw [Text.rstrip_append hblank]
      exact List.prefix_append [c] _
  rw [List.append_assoc, Text.rstrip_append fun h => by
    rw [h c (List.mem_append_left _ (List.mem_singleton_self c))] at hc
    cases hc]
  exact (List.prefix_append_right_inj front).mpr hkept

/-- The body begins with the heading the section reports. -/
def ArticleSection.Begins (s : ArticleSection) : Prop :=
  ∃ title gap, s.heading = some title ∧ 2 ≤ s.level ∧ gap ≠ [] ∧ (∀ c ∈ gap, isSpace c = true) ∧
    List.replicate s.level '#' ++ (gap ++ title) <+: s.bodyMd

theorem heading_prefix (lines : List Text) (h : sectionHeading line = some (level, title)) :
    2 ≤ level ∧ ∃ gap, gap ≠ [] ∧ (∀ c ∈ gap, isSpace c = true) ∧
      List.replicate level '#' ++ (gap ++ title) <+: strip (joinLines (line :: lines)) := by
  obtain ⟨indent, gap, rest, front, c, rfl, hindent, hlevel, hne, hgap, rfl, hc⟩ :=
    sectionHeading_split h
  obtain ⟨more, hmore⟩ : ∃ more, joinLines ((indent ++ (List.replicate level '#' ++
      (gap ++ (front ++ [c] ++ rest)))) :: lines) =
        indent ++ (List.replicate level '#' ++ (gap ++ (front ++ [c] ++ more))) := by
    cases lines with
    | nil => exact ⟨rest, by rw [joinLines, Text.join, List.intercalate_singleton]⟩
    | cons next lines =>
      refine ⟨rest ++ (['\n'] ++ joinLines (next :: lines)), ?_⟩
      rw [joinLines, Text.join_cons_cons, ← joinLines]
      simp only [List.append_assoc]
  refine ⟨hlevel, gap, hne, hgap, ?_⟩
  have hmark : (List.replicate level '#' ++ (gap ++ (front ++ [c] ++ more))).dropWhile isSpace =
      List.replicate level '#' ++ (gap ++ (front ++ [c] ++ more)) := by
    obtain ⟨n, rfl⟩ := Nat.exists_eq_add_of_le' hlevel
    exact List.dropWhile_cons_of_neg (by decide)
  rw [hmore, strip, lstrip, List.dropWhile_append_of_pos hindent, hmark]
  have hshape : List.replicate level '#' ++ (gap ++ (front ++ [c])) =
      List.replicate level '#' ++ (gap ++ front) ++ [c] := by simp only [List.append_assoc]
  rw [hshape]
  refine prefix_rstrip hc ⟨more, ?_⟩
  simp only [List.append_assoc]

theorem heading_inked (h : (sectionHeading line).isSome) : strip line ≠ [] := by
  obtain ⟨⟨level, title⟩, hline⟩ := Option.isSome_iff_exists.mp h
  obtain ⟨-, gap, hgap, -, hprefix⟩ := heading_prefix [] hline
  rw [joinLines, Text.join, List.intercalate_singleton] at hprefix
  intro hnil
  rw [hnil, List.prefix_nil, List.append_eq_nil_iff, List.append_eq_nil_iff] at hprefix
  exact hgap hprefix.2.1

/-! ### Fenced blocks -/

/-- The mark of the block that is open after a line: a fence of the other mark does not close it. -/
def fenceStep (block : Option Char) (line : Text) : Option Char :=
  match fenceMark line, block with
  | none, _ => block
  | some mark, none => some mark
  | some mark, some opened => if mark = opened then none else some opened

section FenceStep

variable {line : Text} {mark : Char}

theorem fenceStep_plain (h : fenceMark line = none) (block : Option Char) :
    fenceStep block line = block := by
  simp only [fenceStep, h]

theorem fenceStep_none (h : fenceMark line = some mark) : fenceStep none line = some mark := by
  simp only [fenceStep, h]

theorem fenceStep_same (h : fenceMark line = some mark) : fenceStep (some mark) line = none := by
  simp only [fenceStep, h, if_true]

end FenceStep

/-- The fenced block that lines leave open. -/
def openBlock (lines : List Text) : Option Char := lines.foldl fenceStep none

/-- No fence line of the other mark stands in a fenced block. -/
def Unmixed (lines : List Text) : Prop :=
  ∀ before line after mark opened, lines = before ++ line :: after → fenceMark line = some mark →
    openBlock before = some opened → mark = opened

theorem openBlock_concat (lines : List Text) (line : Text) :
    openBlock (lines ++ [line]) = fenceStep (openBlock lines) line := by
  rw [openBlock, List.foldl_append]
  rfl

theorem Unmixed.front {front back : List Text} (h : Unmixed (front ++ back)) : Unmixed front := by
  rintro before line after mark opened rfl
  exact h before line (after ++ back) mark opened (by simp)

variable {lines : List Text}

theorem Unmixed.turn (h : Unmixed (lines ++ [line])) :
    (openBlock (lines ++ [line])).isSome = ((openBlock lines).isSome ^^ (fenceMark line).isSome) := by
  rw [openBlock_concat]
  cases hmark : fenceMark line with
  | none => rw [fenceStep_plain hmark, Option.isSome_none, Bool.xor_false]
  | some mark =>
    cases hopened : openBlock lines with
    | none => rw [fenceStep_none hmark]; rfl
    | some opened =>
      obtain rfl := h lines line [] mark opened rfl hmark hopened
      rw [fenceStep_same hmark]
      rfl

theorem fenceMark_blank (h : strip line = []) : fenceMark line = none := by
  have hnil : lstrip line = [] := by
    rw [lstrip, List.dropWhile_eq_nil_iff]
    exact Text.strip_nil_iff.mp h
  rw [fenceMark, hnil]

theorem heading_plain (h : sectionHeading line = some (level, title)) : fenceMark line = none := by
  obtain ⟨indent, gap, rest, front, c, rfl, hindent, hlevel, -⟩ := sectionHeading_split h
  obtain ⟨n, rfl⟩ := Nat.exists_eq_add_of_le' hlevel
  rw [fenceMark, lstrip, List.dropWhile_append_of_pos hindent]
  rfl

theorem openBlock_inkedLines (lines : List Text) : openBlock (inkedLines lines) = openBlock lines := by
  induction lines using List.reverseRecOn with
  | nil => rfl
  | append_singleton lines line ih =>
    rw [inkedLines, List.filter_append, ← inkedLines, openBlock_concat, ← ih]
    by_cases hblank : strip line = []
    · rw [List.filter_cons_of_neg (by simp [hblank]), List.filter_nil, List.append_nil,
        fenceStep_plain (fenceMark_blank hblank)]
    · rw [List.filter_cons_of_pos (by simpa using hblank), List.filter_nil, openBlock_concat]

theorem Unmixed.of_inked (h : Unmixed (inkedLines lines)) : Unmixed lines := by
  rintro before line after mark opened rfl hmark hopened
  have hline : strip line ≠ [] := fun hblank => by
    rw [fenceMark_blank hblank] at hmark
    cases hmark
  refine h (inkedLines before) line (inkedLines after) mark opened ?_ hmark ?_
  · rw [inkedLines, List.filter_append, List.filter_cons_of_pos (by simpa using hline)]
    rfl
  · rw [openBlock_inkedLines, hopened]

/-! ### A run of the loop -/

/-- Lines begin with a heading, outside the fenced blocks of what comes before. -/
structure Opens (before lines : List Text) : Prop where
  heading : ∃ line rest, lines = line :: rest ∧ (sectionHeading line).isSome
  outside : Unmixed before → openBlock before = none

/-- The loop has read `lines`: those of its sections are `groups`. -/
structure Read (lines : List Text) (s : SectionLoop) (groups : List (List Text)) : Prop where
  read : groups.flatten ++ s.current = lines
  bodies : s.sections.map ArticleSection.bodyMd = groups.map fun g => strip (joinLines g)
  numbered : s.sections.map ArticleSection.index = List.range' 1 s.sections.length
  begins : ∀ a ∈ s.sections.tail, a.Begins
  fence : Unmixed lines → s.inFence = (openBlock lines).isSome
  seen : s.seenBoundary = true → ∃ line ∈ s.current, (sectionHeading line).isSome
  headed : ∀ g ∈ groups, ∃ line ∈ g, (sectionHeading line).isSome
  opens : ∀ before g after, groups = before ++ g :: after → before ≠ [] → Opens before.flatten g
  current : groups ≠ [] → Opens groups.flatten s.current ∧ ∃ line rest title,
    s.current = line :: rest ∧ sectionHeading line = some (s.level, title) ∧ s.heading = some title

namespace Read

variable {lines : List Text} {s : SectionLoop} {groups : List (List Text)} {line : Text}

theorem start : Read [] {} [] where
  read := rfl
  bodies := rfl
  numbered := rfl
  begins := fun _ h => absurd h List.not_mem_nil
  fence := fun _ => rfl
  seen := fun h => by cases h
  headed := fun _ h => absurd h List.not_mem_nil
  opens := fun before g after h => by simp at h
  current := fun h => absurd rfl h

theorem add (h : Read lines s groups) {t : SectionLoop} (hsections : t.sections = s.sections)
    (hcurrent : t.current = s.current ++ [line])
    (hfence : t.inFence = (s.inFence ^^ (fenceMark line).isSome))
    (hseen : t.seenBoundary = true → s.seenBoundary = true ∨ (sectionHeading line).isSome)
    (hnamed : groups ≠ [] → t.heading = s.heading ∧ t.level = s.level) :
    Read (lines ++ [line]) t groups where
  read := by rw [hcurrent, ← List.append_assoc, h.read]
  bodies := by rw [hsections, h.bodies]
  numbered := by rw [hsections, h.numbered]
  begins := by
    rw [hsections]
    exact h.begins
  fence hunmixed := by rw [hfence, hunmixed.turn, h.fence hunmixed.front]
  seen ht := by
    rw [hcurrent]
    rcases hseen ht with hs | hline
    · obtain ⟨l, hl, hheading⟩ := h.seen hs
      exact ⟨l, List.mem_append_left _ hl, hheading⟩
    · exact ⟨line, List.mem_append_right _ (List.mem_singleton_self line), hline⟩
  headed := h.headed
  opens := h.opens
  current hne := by
    obtain ⟨hopens, first, rest, title, hfirst, hheading, htitle⟩ := h.current hne
    obtain ⟨hsame, hlevel⟩ := hnamed hne
    have hmore : t.current = first :: (rest ++ [line]) := by rw [hcurrent, hfirst]; rfl
    refine ⟨⟨⟨first, rest ++ [line], hmore, by rw [hheading]; rfl⟩, hopens.outside⟩, first,
      rest ++ [line], title, hmore, ?_, ?_⟩
    · rw [hlevel, hheading]
    · rw [hsame, htitle]

theorem ended_bodies (h : Read lines s groups) :
    (s.sections ++ [s.ended]).map ArticleSection.bodyMd =
      (groups ++ [s.current]).map fun g => strip (joinLines g) := by
  rw [List.map_append, List.map_append, h.bodies]
  rfl

theorem ended_numbered (h : Read lines s groups) :
    (s.sections ++ [s.ended]).map ArticleSection.index =
      List.range' 1 (s.sections ++ [s.ended]).length := by
  rw [List.map_append, h.numbered, List.length_append, List.length_singleton, List.range'_concat,
    Nat.one_mul, Nat.add_comm 1]
  rfl

theorem ended_begins (h : Read lines s groups) :
    ∀ a ∈ (s.sections ++ [s.ended]).tail, a.Begins := by
  cases hs : s.sections with
  | nil => exact fun _ ha => absurd ha List.not_mem_nil
  | cons a rest =>
    have hne : groups ≠ [] := by
      rintro rfl
      have hbodies := h.bodies
      rw [hs] at hbodies
      cases hbodies
    obtain ⟨-, first, more, name, hfirst, hname, htitled⟩ := h.current hne
    have htail := h.begins
    rw [hs] at htail
    refine List.forall_mem_append.mpr ⟨htail, List.forall_mem_singleton.mpr ?_⟩
    obtain ⟨hlevel, gap, hgap, hspace, hprefix⟩ := heading_prefix more hname
    refine ⟨name, gap, htitled, hlevel, hgap, hspace, ?_⟩
    rw [SectionLoop.ended, hfirst]
    exact hprefix

theorem ended_opens (h : Read lines s groups) {before after : List (List Text)} {g : List Text}
    (hsplit : groups ++ [s.current] = before ++ g :: after) (hne : before ≠ []) :
    Opens before.flatten g := by
  rcases List.eq_nil_or_concat' after with rfl | ⟨after, last, rfl⟩
  · obtain ⟨rfl, hlast⟩ := List.append_inj' hsplit rfl
    rw [← List.singleton_inj.mp hlast]
    exact (h.current hne).1
  · rw [← List.cons_append, ← List.append_assoc] at hsplit
    exact h.opens before g after (List.append_inj' hsplit rfl).1 hne

theorem cut (h : Read lines s groups) {t : SectionLoop} {level : Nat} {title : Text}
    (hheading : sectionHeading line = some (level, title)) (hseen : s.seenBoundary = true)
    (hclosed : (s.inFence ^^ (fenceMark line).isSome) = false)
    (hsections : t.sections = s.sections ++ [s.ended]) (hcurrent : t.current = [line])
    (hfence : t.inFence = false) (htitle : t.heading = some title) (hlevel : t.level = level) :
    Read (lines ++ [line]) t (groups ++ [s.current]) where
  read := by rw [hcurrent, List.flatten_append, List.flatten_singleton, h.read]
  bodies := by rw [hsections, h.ended_bodies]
  numbered := by rw [hsections, h.ended_numbered]
  begins := by
    rw [hsections]
    exact h.ended_begins
  fence hunmixed := by
    rw [hfence, hunmixed.turn, ← h.fence hunmixed.front, hclosed]
  seen _ := by
    rw [hcurrent]
    exact ⟨line, List.mem_singleton_self line, by rw [hheading]; rfl⟩
  headed := List.forall_mem_append.mpr ⟨h.headed, List.forall_mem_singleton.mpr (h.seen hseen)⟩
  opens _ _ _ := h.ended_opens
  current _ := by
    refine ⟨⟨⟨line, [], hcurrent, by rw [hheading]; rfl⟩, fun hunmixed => ?_⟩, line, [], title,
      hcurrent, by rw [hlevel, hheading], htitle⟩
    rw [List.flatten_append, List.flatten_singleton, h.read] at hunmixed ⊢
    rw [heading_plain hheading, h.fence hunmixed] at hclosed
    simpa using hclosed

/-- **What one line does.** -/
theorem step (h : Read lines s groups) (line : Text) :
    ∃ groups', Read (lines ++ [line]) (s.step line) groups' := by
  rw [SectionLoop.step]
  cases hfound : if s.inFence ^^ (fenceMark line).isSome then none else sectionHeading line with
  | none => exact ⟨groups, h.add rfl rfl rfl .inl fun _ => ⟨rfl, rfl⟩⟩
  | some heading =>
    obtain ⟨hclosed, hheading⟩ := Option.ite_none_left_eq_some.mp hfound
    by_cases hcut : s.current ≠ [] ∧ s.seenBoundary = true
    · refine ⟨_, h.cut hheading hcut.2 (by simpa using hclosed) ?_ ?_ (by simpa using hclosed)
        ?_ ?_⟩
      all_goals simp [SectionLoop.flush, SectionLoop.named, hcut.1, hcut.2]
    · have hflush : s.flush = s := if_neg hcut
      refine ⟨groups, h.add ?_ ?_ rfl (fun _ => .inr (by rw [hheading]; rfl)) fun hne => ?_⟩
      · simp only [hflush, SectionLoop.named]
        split_ifs <;> rfl
      · simp only [hflush, SectionLoop.named]
        split_ifs <;> rfl
      · -- the open section has its heading already
        obtain ⟨-, first, rest, name, hfirst, -, hname⟩ := h.current hne
        simp [hflush, SectionLoop.named, hfirst, hname]

end Read

/-- **What the loop has done.** -/
theorem read_foldl (lines : List Text) :
    ∃ groups, Read lines (lines.foldl SectionLoop.step {}) groups := by
  induction lines using List.reverseRecOn with
  | nil => exact ⟨[], .start⟩
  | append_singleton lines line ih =>
    obtain ⟨groups, h⟩ := ih
    rw [List.foldl_append]
    exact h.step line

/-! ### The sections -/

theorem exactLines_groups {groups : List (List Text)} {markdown : Text}
    (h : groups.flatten = splitlines markdown) :
    groups.map (fun g => exactLines (strip (joinLines g))) =
      (groups.map inkedLines).map (trimEnds isSpace) := by
  rw [List.map_map]
  refine List.map_congr_left fun g hg => ?_
  have hlines : ∀ line ∈ g, ∀ c ∈ line, Ask.isLineBreak c = false := fun line hline =>
    Routing.splitlines_unbroken markdown line (h ▸ List.mem_flatten.mpr ⟨g, hg, hline⟩)
  rw [exactLines_strip, exactLines_joinLines hlines]
  rfl

theorem Opens.inked {before g : List Text} (h : Opens before g) :
    Opens (inkedLines before) (inkedLines g) := by
  obtain ⟨line, rest, rfl, hheading⟩ := h.heading
  refine ⟨⟨line, inkedLines rest, ?_, hheading⟩, fun hunmixed => ?_⟩
  · exact List.filter_cons_of_pos (by simpa using heading_inked hheading)
  · rw [openBlock_inkedLines, h.outside hunmixed.of_inked]

/-- What the sections of a body are. -/
structure SectionView (markdown : Text) (sections : List ArticleSection) : Prop where
  numbered : sections.map ArticleSection.index = List.range' 1 sections.length
  begins : ∀ a ∈ sections.tail, a.Begins
  lines : ∃ groups, groups.flatten = exactLines markdown ∧
    sections.map (fun a => exactLines a.bodyMd) = groups.map (trimEnds isSpace) ∧
      ∀ before g after, groups = before ++ g :: after → before ≠ [] → Opens before.flatten g

/-- **The sections of a body say what the body says**, line for line but for the white space at
their ends; each after the first begins with its heading, outside the fenced blocks, as long as no
block before it holds a fence line of the other mark. -/
theorem articleSections_view (markdown : Text) : SectionView markdown (articleSections markdown) := by
  obtain ⟨groups, h⟩ := read_foldl (splitlines markdown)
  rw [articleSections]
  generalize (splitlines markdown).foldl SectionLoop.step {} = s at h
  by_cases hlast : s.current ≠ [] ∧ strip (joinLines s.current) ≠ []
  · have hflatten : (groups ++ [s.current]).flatten = splitlines markdown := by
      rw [List.flatten_append, List.flatten_singleton, h.read]
    have hsome : ¬(s.sections ++ [s.ended] = [] ∧ strip markdown ≠ []) := fun hnil =>
      absurd hnil.1 (List.concat_ne_nil _ _)
    rw [if_pos hlast, if_neg hsome]
    refine ⟨h.ended_numbered, h.ended_begins, (groups ++ [s.current]).map inkedLines, ?_, ?_, ?_⟩
    · rw [flatten_inkedLines, hflatten]
      rfl
    · have hbodies := congrArg (List.map exactLines) h.ended_bodies
      rw [List.map_map, List.map_map] at hbodies
      rw [← exactLines_groups hflatten]
      exact hbodies
    · intro before g after hsplit hne
      obtain ⟨before', rest, hgroups, rfl, hrest⟩ := List.map_eq_append_iff.mp hsplit
      obtain ⟨g', after', rfl, rfl, rfl⟩ := List.map_eq_cons_iff.mp hrest
      rw [flatten_inkedLines]
      exact (h.ended_opens hgroups (by simpa using hne)).inked
  · -- no line is left only when none has begun a section
    have hnone : groups = [] := by
      by_contra hne
      obtain ⟨-, line, rest, title, hcurrent, hheading, -⟩ := h.current hne
      obtain ⟨-, gap, hgap, -, hprefix⟩ := heading_prefix rest hheading
      rw [← hcurrent] at hprefix
      refine hlast ⟨by rw [hcurrent]; exact List.cons_ne_nil line rest, fun hnil => ?_⟩
      rw [hnil, List.prefix_nil, List.append_eq_nil_iff, List.append_eq_nil_iff] at hprefix
      exact hgap hprefix.2.1
    subst hnone
    have hsections : s.sections = [] := List.map_eq_nil_iff.mp h.bodies
    rw [if_neg hlast, hsections]
    by_cases hblank : strip markdown = []
    · rw [if_neg fun hnil => hnil.2 hblank]
      refine ⟨rfl, fun _ ha => absurd ha List.not_mem_nil, [], ?_, rfl, fun _ _ _ hsplit => ?_⟩
      · rw [exactLines_of_blank hblank]
        rfl
      · simp at hsplit
    · rw [if_pos ⟨rfl, hblank⟩]
      refine ⟨rfl, fun _ ha => absurd ha List.not_mem_nil, [exactLines markdown],
        List.flatten_singleton, ?_, fun before g after hsplit hne => ?_⟩
      · rw [List.map_singleton, List.map_singleton, exactLines_strip]
      · obtain ⟨first, before, rfl⟩ := List.exists_cons_of_ne_nil hne
        simp at hsplit

/-- A body with one section begun inside a block of backticks that holds a `~~~`, and an indented
body. -/
theorem heading_in_fence :
    (articleSections "## A\n```\n~~~\n## b\n```".toList).map ArticleSection.bodyMd =
        ["## A\n```\n~~~".toList, "## b\n```".toList] ∧
      openBlock ["## A".toList, "```".toList, "~~~".toList] = some '`' ∧
    (articleSections "    code\ntext".toList).flatMap (fun a => exactLines a.bodyMd) ≠
      exactLines "    code\ntext".toList := by
  refine ⟨?_, ?_, ?_⟩ <;> decide +kernel

end QnscKb.Mcp
